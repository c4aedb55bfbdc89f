/-!
Finite sets of texts, kept as strictly increasing lists in the order of code points. Main
statements: membership after `insert` and `ofList`, and two sets with the same members are
equal.
-/

namespace NameserverAudit

structure TextSet where
  toList : List String
  increasing : toList.Pairwise (· < ·)
deriving DecidableEq

namespace TextSet

/-- Puts a text into a strictly increasing list. -/
def insertSorted (x : String) : List String → List String
  | [] => [x]
  | y :: rest =>
      if x < y then x :: y :: rest
      else if x = y then y :: rest
      else y :: insertSorted x rest

/-- The members after putting a text in, by induction on the list. -/
theorem mem_insertSorted {x y : String} {xs : List String}
    : y ∈ insertSorted x xs ↔ y = x ∨ y ∈ xs := by
  induction xs with
  | nil => simp [insertSorted]
  | cons z rest ih =>
      simp only [insertSorted]
      split
      · simp
      · split
        · next h => subst h; simp
        · simp only [List.mem_cons, ih]
          constructor
          · rintro (h | h | h) <;> simp [h]
          · rintro (h | h | h) <;> simp [h]

/-- Putting a text in keeps the list strictly increasing, by trichotomy. -/
theorem pairwise_insertSorted {x : String} {xs : List String} (h : xs.Pairwise (· < ·))
    : (insertSorted x xs).Pairwise (· < ·) := by
  induction xs with
  | nil => simp [insertSorted]
  | cons y rest ih =>
      obtain ⟨hy, hrest⟩ := List.pairwise_cons.1 h
      simp only [insertSorted]
      split
      · next hlt =>
        refine List.pairwise_cons.2 ⟨?_, h⟩
        intro z hz
        rcases List.mem_cons.1 hz with rfl | hz
        · exact hlt
        · exact String.lt_trans hlt (hy z hz)
      · split
        · exact h
        · next hnlt hne =>
          refine List.pairwise_cons.2 ⟨?_, ih hrest⟩
          intro z hz
          rcases mem_insertSorted.1 hz with rfl | hz
          · by_cases hzy : y < z
            · exact hzy
            · exact absurd (String.le_antisymm (String.not_lt.1 hzy) (String.not_lt.1 hnlt)) hne
          · exact hy z hz

def empty : TextSet := ⟨[], List.Pairwise.nil⟩

instance : Inhabited TextSet := ⟨empty⟩

def insert (s : TextSet) (x : String) : TextSet :=
  ⟨insertSorted x s.toList, pairwise_insertSorted s.increasing⟩

def ofList (xs : List String) : TextSet :=
  xs.foldr (fun x s => s.insert x) empty

def union (s t : TextSet) : TextSet :=
  t.toList.foldr (fun x u => u.insert x) s

instance : Membership String TextSet := ⟨fun s x => x ∈ s.toList⟩

theorem mem_def {s : TextSet} {x : String} : x ∈ s ↔ x ∈ s.toList := Iff.rfl

@[simp] theorem not_mem_empty (x : String) : x ∉ empty := by
  simp [mem_def, empty]

@[simp] theorem mem_insert {s : TextSet} {x y : String}
    : y ∈ s.insert x ↔ y = x ∨ y ∈ s :=
  mem_insertSorted

/-- The members of the set of a list are the members of the list. -/
@[simp] theorem mem_ofList {xs : List String} {y : String} : y ∈ ofList xs ↔ y ∈ xs := by
  induction xs with
  | nil => simp [ofList]
  | cons x rest ih =>
      rw [ofList] at ih ⊢
      simp [List.foldr_cons, ih]

@[simp] theorem mem_union {s t : TextSet} {y : String} : y ∈ s.union t ↔ y ∈ s ∨ y ∈ t := by
  have h (xs : List String)
      : y ∈ xs.foldr (fun x u => u.insert x) s ↔ y ∈ s ∨ y ∈ xs := by
    induction xs with
    | nil => simp
    | cons x rest ih =>
        simp only [List.foldr_cons, mem_insert, ih, List.mem_cons]
        constructor <;> rintro (h | h | h) <;> simp [h]
  exact h t.toList

/-- Two sets with the same members are equal: a strictly increasing list is given by its
members. -/
theorem ext {s t : TextSet} (h : ∀ x, x ∈ s ↔ x ∈ t) : s = t := by
  have lists (xs ys : List String) (hx : xs.Pairwise (· < ·)) (hy : ys.Pairwise (· < ·))
      (h : ∀ x, x ∈ xs ↔ x ∈ ys)
      : xs = ys := by
    induction xs generalizing ys with
    | nil =>
        cases ys with
        | nil => rfl
        | cons y rest => exact absurd ((h y).2 (by simp)) (by simp)
    | cons x xs ih =>
        cases ys with
        | nil => exact absurd ((h x).1 (by simp)) (by simp)
        | cons y ys =>
            obtain ⟨hx₁, hx₂⟩ := List.pairwise_cons.1 hx
            obtain ⟨hy₁, hy₂⟩ := List.pairwise_cons.1 hy
            have hxy : x = y := by
              rcases List.mem_cons.1 ((h x).1 (by simp)) with hxy | hxy
              · exact hxy
              · rcases List.mem_cons.1 ((h y).2 (by simp)) with hyx | hyx
                · exact hyx.symm
                · exact absurd (hy₁ x hxy) (String.lt_asymm (hx₁ y hyx))
            subst hxy
            have tails (z : String) : z ∈ xs ↔ z ∈ ys := by
              constructor
              · intro hz
                rcases List.mem_cons.1 ((h z).1 (List.mem_cons_of_mem _ hz)) with rfl | hz'
                · exact absurd (hx₁ z hz) (String.lt_irrefl z)
                · exact hz'
              · intro hz
                rcases List.mem_cons.1 ((h z).2 (List.mem_cons_of_mem _ hz)) with rfl | hz'
                · exact absurd (hy₁ z hz) (String.lt_irrefl z)
                · exact hz'
            rw [ih ys hx₂ hy₂ tails]
  cases s
  cases t
  simp only [mk.injEq]
  exact lists _ _ ‹_› ‹_› h

end TextSet

end NameserverAudit
