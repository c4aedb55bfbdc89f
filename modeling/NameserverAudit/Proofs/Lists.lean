import Mathlib.Data.List.Sort

/-! Lists without repetition, lists with different keys and lists sorted by a key; lists whose
members are all read or have a counterpart.
-/

namespace NameserverAudit

-----------------------------------------------------------------------------------------
-- Reading all members
-----------------------------------------------------------------------------------------

/-- All members are read just if each of them is read as the one at its place, by induction on
the list.
-/
theorem mapM_eq_some_iff {α β : Type} {f : α → Option β} {xs : List α} {ys : List β}
    : xs.mapM f = some ys ↔ List.Forall₂ (fun x y => f x = some y) xs ys := by
  induction xs generalizing ys with
  | nil => simp [eq_comm]
  | cons x xs ih =>
      rw [List.mapM_cons]
      cases hx : f x with
      | none =>
          simp only [Option.bind_eq_bind, Option.bind_none, reduceCtorEq, false_iff]
          rintro (_ | ⟨head, -⟩)
          rw [hx] at head
          cases head
      | some y =>
          simp only [Option.bind_eq_bind, Option.bind_some, Option.bind_eq_some_iff,
            Option.pure_def, Option.some.injEq, ih]
          constructor
          · rintro ⟨rest, hrest, rfl⟩
            exact .cons hx hrest
          · rintro (_ | ⟨head, tail⟩)
            rw [hx] at head
            exact ⟨_, tail, by rw [Option.some.inj head]⟩

/-- All members succeed just if each of them gives the result at its place, by induction on the
list.
-/
theorem mapM_eq_ok_iff {α β ε : Type} {f : α → Except ε β} {xs : List α} {ys : List β}
    : xs.mapM f = .ok ys ↔ List.Forall₂ (fun x y => f x = .ok y) xs ys := by
  induction xs generalizing ys with
  | nil => simp [pure, Except.pure, eq_comm]
  | cons x xs ih =>
      rw [List.mapM_cons, List.forall₂_cons_left_iff]
      cases hx : f x with
      | error fault => simp [bind, Except.bind]
      | ok y =>
          simp only [← ih]
          cases xs.mapM f with
          | error fault => simp [bind, Except.bind]
          | ok rest => simp [bind, Except.bind, pure, Except.pure, eq_comm]

/-- If not all members succeed, the fault is that of one of them, by induction on the list. -/
theorem exists_of_mapM_eq_error {α β ε : Type} {f : α → Except ε β} {xs : List α} {fault : ε}
    (h : xs.mapM f = .error fault)
    : ∃ x ∈ xs, f x = .error fault := by
  induction xs with
  | nil => cases h
  | cons x xs ih =>
      rw [List.mapM_cons] at h
      rcases hx : f x with early | y
      all_goals rw [hx] at h
      · exact ⟨x, List.mem_cons_self, hx.trans (congrArg _ (Except.error.inj h))⟩
      · rcases hrest : xs.mapM f with late | ys
        all_goals rw [hrest] at h
        · obtain ⟨other, hmem, hfault⟩ := ih (hrest.trans (congrArg _ (Except.error.inj h)))
          exact ⟨other, List.mem_cons_of_mem x hmem, hfault⟩
        · cases h

/-- A list has a counterpart just if each of its members has one, by induction on the list. -/
theorem exists_forall₂_iff {α β : Type} {r : α → β → Prop} {xs : List α}
    : (∃ ys, List.Forall₂ r xs ys) ↔ ∀ x ∈ xs, ∃ y, r x y := by
  induction xs with
  | nil => simp
  | cons x xs ih =>
      rw [List.forall_mem_cons, ← ih]
      constructor
      · rintro ⟨_, h⟩
        cases h with
        | cons head tail => exact ⟨⟨_, head⟩, _, tail⟩
      · rintro ⟨⟨y, head⟩, ys, tail⟩
        exact ⟨y :: ys, .cons head tail⟩

/-- What is left behind the longest run of members of a class. -/
theorem drop_length_takeWhile {α : Type} (p : α → Bool) (xs : List α)
    : xs.drop (xs.takeWhile p).length = xs.dropWhile p := by
  conv_lhs => rw [← List.takeWhile_append_dropWhile (p := p) (l := xs)]
  exact List.drop_left' (by simp)

-----------------------------------------------------------------------------------------
-- Lists without repetition
-----------------------------------------------------------------------------------------

/-- A list without its repetitions has none: by induction on the length, since the rest loses
all members that are equal to the first one.
-/
theorem nodup_eraseDups {α : Type} [BEq α] [LawfulBEq α] (xs : List α) : xs.eraseDups.Nodup := by
  induction hn : xs.length using Nat.strongRecOn generalizing xs with
  | ind n ih =>
      cases xs with
      | nil => simp
      | cons x xs =>
          rw [List.eraseDups_cons, List.nodup_cons]
          constructor
          · simp [List.mem_eraseDups]
          · refine ih _ ?_ _ rfl
            have := List.length_filter_le (fun y => !y == x) xs
            rw [List.length_cons] at hn
            omega

/-- A list without repetition loses nothing, by induction on it. -/
theorem eraseDups_of_nodup {α : Type} [BEq α] [LawfulBEq α] {xs : List α} (h : xs.Nodup)
    : xs.eraseDups = xs := by
  induction xs with
  | nil => rfl
  | cons x xs ih =>
      obtain ⟨new, rest⟩ := List.nodup_cons.1 h
      have others : xs.filter (fun y => !y == x) = xs := by
        rw [List.filter_eq_self]
        intro y hy
        simpa using fun same : y = x => new (same ▸ hy)
      rw [List.eraseDups_cons, others, ih rest]

theorem eraseDups_concat {α : Type} [BEq α] [LawfulBEq α] (xs : List α) (x : α)
    : (xs ++ [x]).eraseDups = if x ∈ xs then xs.eraseDups else xs.eraseDups ++ [x] := by
  rw [List.eraseDups_append]
  by_cases h : x ∈ xs <;> simp [List.removeAll, List.eraseDups_cons, h]

/-- Among entries with different keys the one with a key is found. By induction on them. -/
theorem find?_of_nodup {α β : Type} [DecidableEq β] {key : α → β} {all : List α} {a : α}
    (distinct : (all.map key).Nodup) (ha : a ∈ all)
    : all.find? (fun b => key b = key a) = some a := by
  induction all with
  | nil => simp at ha
  | cons b rest ih =>
      obtain ⟨hnew, hrest⟩ := List.nodup_cons.1 distinct
      rw [List.find?_cons]
      rcases List.mem_cons.1 ha with rfl | ha
      · simp
      · have hne : key b ≠ key a := fun h => hnew (h ▸ List.mem_map_of_mem ha)
        simpa [hne] using ih hrest ha

-----------------------------------------------------------------------------------------
-- Sorting by a key
-----------------------------------------------------------------------------------------

/-- Sorting by a test that compares keys leaves a list in the order of its keys. -/
theorem pairwise_mergeSort_key {α β : Type} [LinearOrder β] {key : α → β}
    {le : α → α → Bool} {l : List α}
    (agree : ∀ a ∈ l, ∀ b ∈ l, le a b = decide (key a ≤ key b))
    : (l.mergeSort le).Pairwise fun a b => key a ≤ key b := by
  have by_key : l.mergeSort le = l.mergeSort fun a b => decide (key a ≤ key b) := by
    have := List.map_mergeSort (r := le) (s := fun a b => decide (key a ≤ key b)) (f := id)
      agree
    simpa using this
  have sorted : (l.mergeSort fun a b => decide (key a ≤ key b)).Pairwise
      fun a b => decide (key a ≤ key b) = true :=
    List.pairwise_mergeSort
      (fun a b c hab hbc => by
        rw [decide_eq_true_eq] at *
        exact le_trans hab hbc)
      (fun a b => by simpa using le_total (key a) (key b)) l
  rw [by_key]
  exact sorted.imp of_decide_eq_true

/-- Sorting by a key that tells the members of a list apart does not depend on the order in which
they come.
-/
theorem mergeSort_eq_of_perm {α β : Type} [LinearOrder β] {key : α → β} {le : α → α → Bool}
    {l l' : List α} (agree : ∀ a ∈ l, ∀ b ∈ l, le a b = decide (key a ≤ key b))
    (apart : ∀ a ∈ l, ∀ b ∈ l, key a = key b → a = b) (perm : l'.Perm l)
    : l'.mergeSort le = l.mergeSort le := by
  have agree' : ∀ a ∈ l', ∀ b ∈ l', le a b = decide (key a ≤ key b) :=
    fun a ha b hb => agree a (perm.mem_iff.1 ha) b (perm.mem_iff.1 hb)
  have member {a : α} (ha : a ∈ l'.mergeSort le) : a ∈ l :=
    perm.mem_iff.1 ((List.mergeSort_perm l' le).mem_iff.1 ha)
  refine List.Perm.eq_of_pairwise (fun a b ha hb hab hba => ?_)
    (pairwise_mergeSort_key agree') (pairwise_mergeSort_key agree) ?_
  · exact apart a (member ha) b ((List.mergeSort_perm l le).mem_iff.1 hb) (le_antisymm hab hba)
  · exact ((List.mergeSort_perm l' le).trans perm).trans (List.mergeSort_perm l le).symm

section
variable {α β : Type} [LinearOrder β] (key : α → β) (l : List α)

/-- Sorting by a key keeps the order of those that have one key: they are a sorted sublist, so
they are a sublist of the sorted list too, and there are no more of them.
-/
theorem filter_mergeSort_key (k : β)
    : (l.mergeSort fun a b => decide (key a ≤ key b)).filter (fun a => key a = k)
      = l.filter fun a => key a = k := by
  have level : (l.filter fun a => key a = k).Pairwise
      fun a b => decide (key a ≤ key b) = true := by
    apply List.pairwise_of_forall_mem_list
    intro a ha b hb
    have hka : key a = k := by simpa using (List.mem_filter.1 ha).2
    have hkb : key b = k := by simpa using (List.mem_filter.1 hb).2
    exact decide_eq_true (hka.trans hkb.symm).le
  have kept : (l.filter fun a => key a = k).Sublist
      (l.mergeSort fun a b => decide (key a ≤ key b)) :=
    List.sublist_mergeSort
      (fun a b c hab hbc => by
        rw [decide_eq_true_eq] at *
        exact le_trans hab hbc)
      (fun a b => by simpa using le_total (key a) (key b)) level List.filter_sublist
  have kept' := kept.filter fun a => key a = k
  rw [List.filter_filter] at kept'
  simp only [Bool.and_self] at kept'
  exact (kept'.eq_of_length ((List.mergeSort_perm l _).symm.filter _).length_eq).symm

/-- Sorting by a key keeps a relation that holds along the list, among those with one key. -/
theorem pairwise_mergeSort_key_of {R : α → α → Prop} (h : l.Pairwise R)
    : (l.mergeSort fun a b => decide (key a ≤ key b)).Pairwise
        fun a b => key a < key b ∨ key a = key b ∧ R a b := by
  have sorted : (l.mergeSort fun a b => decide (key a ≤ key b)).Pairwise
      fun a b => key a ≤ key b :=
    pairwise_mergeSort_key fun _ _ _ _ => rfl
  rw [List.pairwise_iff_forall_sublist] at sorted h ⊢
  intro a b hab
  rcases (sorted hab).lt_or_eq with less | same
  · exact .inl less
  · refine .inr ⟨same, h ?_⟩
    have among := hab.filter fun c => key c = key b
    rw [filter_mergeSort_key] at among
    simp only [same, decide_true, List.filter_cons_of_pos, List.filter_nil] at among
    exact among.trans List.filter_sublist

end

end NameserverAudit
