import NameserverAudit.Address.Literal
import NameserverAudit.Proofs.Text.Pieces

/-! Reading the text of an address. Both written forms of every address read back as that
address, so its family can always be told from its text.
-/

namespace NameserverAudit

open Text

/-- The characters of a number are digits of its base, by strong induction on the number: the
last digit comes off the end.
-/
theorem exists_digit_of_mem_toDigits {base n : Nat} {c : Char} (one_lt : 1 < base)
    (h : c ∈ Nat.toDigits base n)
    : ∃ d < base, c = Nat.digitChar d := by
  induction n using Nat.strongRecOn with
  | ind n ih =>
      rw [Nat.toDigits_eq_if one_lt] at h
      split at h
      · next hn => exact ⟨n, hn, List.mem_singleton.1 h⟩
      · rcases List.mem_append.1 h with h | h
        · exact ih (n / base) (Nat.div_lt_self (by omega) one_lt) h
        · exact ⟨n % base, Nat.mod_lt n (by omega), List.mem_singleton.1 h⟩

-----------------------------------------------------------------------------------------
-- Version 4
-----------------------------------------------------------------------------------------

namespace Ipv4

/-- The decimal digits of a byte read back, checked value by value. -/
theorem byte?_toDigits (b : UInt8) : byte? (Nat.toDigits 10 b.toNat) = some b := by
  have h : ∀ n < 256, byte? (Nat.toDigits 10 (UInt8.ofNat n).toNat) = some (UInt8.ofNat n) := by
    decide +kernel
  rw [← UInt8.ofNat_toNat (x := b)]
  exact h b.toNat b.toNat_lt

theorem mem_chars {a : Ipv4} {c : Char} (h : c ∈ a.chars) : c.isDigit = true ∨ c = '.' := by
  rcases mem_intercalate h with rfl | ⟨piece, hpiece, hc⟩
  · exact .inr rfl
  · obtain ⟨b, -, rfl⟩ := List.mem_map.1 hpiece
    exact .inl (Nat.isDigit_of_mem_toDigits (by decide) (by decide) hc)

/-- The pieces of an address between its dots are the digits of its bytes. -/
theorem splitOn_chars (a : Ipv4)
    : splitOn '.' a.chars = a.bytes.map fun b => Nat.toDigits 10 b.toNat := by
  apply splitOn_intercalate
  · intro h
    have := a.length_eq
    simp_all
  · intro piece hp hdot
    obtain ⟨b, -, rfl⟩ := List.mem_map.1 hp
    have := Nat.isDigit_of_mem_toDigits (by decide) (by decide) hdot
    exact absurd this (by decide)

theorem dot_mem_chars (a : Ipv4) : '.' ∈ a.chars := by
  match hbytes : a.bytes, a.length_eq with
  | b :: c :: rest, _ => simp [chars, hbytes, List.intercalate_cons_cons]

theorem ofChars?_chars (a : Ipv4) : ofChars? a.chars = some a := by
  have hbytes (bytes : List UInt8)
      : (bytes.map fun b => Nat.toDigits 10 b.toNat).mapM byte? = some bytes := by
    induction bytes with
    | nil => rfl
    | cons b rest ih => simp [byte?_toDigits, ih]
  simp [ofChars?, splitOn_chars, hbytes, a.length_eq]

theorem byte?_of_colon {cs : List Char} (h : ':' ∈ cs) : byte? cs = none := by
  have hall : cs.all (fun c => '0' ≤ c && c ≤ '9') = false := by
    rw [List.all_eq_false]
    exact ⟨':', h, by decide⟩
  simp [byte?, hall]

/-- Text with a colon is no address of version 4: the piece with the colon is no byte. -/
theorem ofChars?_of_colon {cs : List Char} (h : ':' ∈ cs) : ofChars? cs = none := by
  have hmem : ':' ∈ (splitOn '.' cs).flatMap (· ++ ['.']) := by
    rw [flatMap_splitOn]
    exact List.mem_append_left _ h
  obtain ⟨piece, hpiece, hc⟩ := List.mem_flatMap.1 hmem
  have hpieceColon : ':' ∈ piece := by simpa using hc
  have hnone (pieces : List (List Char)) (hp : piece ∈ pieces)
      : pieces.mapM byte? = none := by
    induction pieces with
    | nil => simp at hp
    | cons first rest ih =>
        rcases List.mem_cons.1 hp with rfl | hp
        · simp [byte?_of_colon hpieceColon]
        · simp [ih hp]
  simp [ofChars?, hnone _ hpiece]

end Ipv4

-----------------------------------------------------------------------------------------
-- Groups of version 6
-----------------------------------------------------------------------------------------

namespace Ipv6

/-- The hexadecimal digits of a number read back, by strong induction on it: the last digit
comes off the end.
-/
theorem mapM_hexValue?_toDigits (n : Nat)
    : ∃ ds,
        (Nat.toDigits 16 n).mapM hexValue? = some ds
        ∧ ds.foldl (fun n d => 16 * n + d) 0 = n := by
  have hdigit : ∀ d < 16, hexValue? (Nat.digitChar d) = some d := by decide
  induction n using Nat.strongRecOn with
  | ind n ih =>
      rw [Nat.toDigits_eq_if (by decide)]
      split
      · next hn => exact ⟨[n], by simp [hdigit n hn], by simp⟩
      · obtain ⟨ds, hds, hvalue⟩ := ih (n / 16) (by omega)
        refine ⟨ds ++ [n % 16], ?_, ?_⟩
        · simp [List.mapM_append, hds, hdigit (n % 16) (by omega)]
        · simp only [List.foldl_append, hvalue, List.foldl_cons, List.foldl_nil]
          omega

/-- A hexadecimal digit is neither punctuation of an address nor a sign around one. -/
theorem digitChar_not_sign
    : ∀ d < 16,
        Nat.digitChar d ≠ ':' ∧ Nat.digitChar d ≠ '.' ∧ Nat.digitChar d ≠ '/'
          ∧ Nat.digitChar d ≠ '%' := by
  decide

theorem piece?_groupChars (g : UInt16) : piece? (groupChars g) = some (some g) := by
  have hne : groupChars g ≠ [] := Nat.toDigits_ne_nil
  have hlength : (groupChars g).length ≤ 4 := by
    rw [groupChars, Nat.length_toDigits_le_iff (by decide) (by decide)]
    exact g.toNat_lt
  obtain ⟨ds, hds, hvalue⟩ := mapM_hexValue?_toDigits g.toNat
  have hgroup : group? (groupChars g) = some g := by
    have : ¬4 < (groupChars g).length := by omega
    have hds : (groupChars g).mapM hexValue? = some ds := hds
    simp [group?, hne, this, hds, hvalue]
  simp [piece?, hne, hgroup]

/-- The characters of joined groups are colons and hexadecimal digits. -/
theorem mem_joined {groups : List UInt16} {c : Char} (h : c ∈ joined groups)
    : c = ':' ∨ ∃ d < 16, c = Nat.digitChar d := by
  rcases mem_intercalate h with rfl | ⟨piece, hpiece, hc⟩
  · exact .inl rfl
  · obtain ⟨g, -, rfl⟩ := List.mem_map.1 hpiece
    exact .inr (exists_digit_of_mem_toDigits (by decide) hc)

theorem dot_not_mem_joined (groups : List UInt16) : '.' ∉ joined groups := by
  intro h
  rcases mem_joined h with colon | ⟨d, hd, digit⟩
  · exact absurd colon (by decide)
  · exact (digitChar_not_sign d hd).2.1 digit.symm

/-- The pieces that joined groups read as: an empty one if there are none. -/
def side : List UInt16 → List (Option UInt16)
  | [] => [none]
  | groups => groups.map some

/-- The pieces between the colons of joined groups are read, by induction on the groups. -/
theorem mapM_joined (groups : List UInt16)
    : (splitOn ':' (joined groups)).mapM piece? = some (side groups) := by
  have hmap (groups : List UInt16)
      : (groups.map groupChars).mapM piece? = some (groups.map some) := by
    induction groups with
    | nil => rfl
    | cons g rest ih => simp [piece?_groupChars, ih]
  cases groups with
  | nil => rfl
  | cons g rest =>
      rw [joined, splitOn_intercalate (by simp), hmap]
      · rfl
      · intro piece hp hcolon
        obtain ⟨h, -, rfl⟩ := List.mem_map.1 hp
        obtain ⟨d, hd, digit⟩ := exists_digit_of_mem_toDigits (by decide) hcolon
        exact (digitChar_not_sign d hd).1 digit.symm

-----------------------------------------------------------------------------------------
-- Gaps
-----------------------------------------------------------------------------------------

/-- The longest run of zero groups stands somewhere between other groups, by induction on the
groups.
-/
theorem longestRun_spec (start : Nat) (groups : List UInt16)
    : ∃ front back,
        groups = front ++ List.replicate (longestRun start groups).2 0 ++ back
        ∧ (longestRun start groups).1 = start + front.length := by
  induction groups generalizing start with
  | nil => exact ⟨[], [], rfl, rfl⟩
  | cons g rest ih =>
      simp only [longestRun]
      split
      · refine ⟨[], (g :: rest).dropWhile (· = 0), ?_, rfl⟩
        have hzeros : (g :: rest).takeWhile (· = 0)
            = List.replicate (zerosInFront (g :: rest)) 0 := by
          refine List.eq_replicate_iff.2 ⟨rfl, ?_⟩
          intro x hx
          simpa using List.all_eq_true.1 List.all_takeWhile x hx
        rw [List.nil_append, ← hzeros, List.takeWhile_append_dropWhile]
      · obtain ⟨front, back, hrest, hstart⟩ := ih (start + 1)
        refine ⟨g :: front, back, by rw [List.cons_append, List.cons_append, ← hrest], ?_⟩
        rw [hstart, List.length_cons]
        omega

theorem mapM_id_some (groups : List UInt16) : (groups.map some).mapM id = some groups := by
  induction groups with
  | nil => rfl
  | cons g rest ih => simp [ih]

theorem low?_side (groups : List UInt16) : low? (side groups) = some groups := by
  rcases groups with - | ⟨g, - | ⟨h, rest⟩⟩
  · rfl
  · rfl
  · exact mapM_id_some (g :: h :: rest)

/-- Groups are taken as far as they are written, by induction on them. -/
theorem takeWhile_isSome (groups : List UInt16) (rest : List (Option UInt16))
    (h : rest.takeWhile Option.isSome = [])
    : (groups.map some ++ rest).takeWhile Option.isSome = groups.map some := by
  induction groups with
  | nil => exact h
  | cons g more ih => simp [ih]

/-- Pieces with a gap between them are the groups on both sides with zero groups between
them.
-/
theorem assemble?_gap (high low : List UInt16)
    : assemble? (side high ++ none :: side low) = fill? high low := by
  cases high with
  | nil =>
      change (low? (side low)).bind (fill? []) = _
      rw [low?_side, Option.bind_some]
  | cons g rest =>
      have htake : (some g :: (rest.map some ++ none :: side low)).takeWhile Option.isSome
          = (g :: rest).map some :=
        takeWhile_isSome (g :: rest) (none :: side low) rfl
      have hdrop : (some g :: (rest.map some ++ none :: side low)).drop
            ((g :: rest).map some).length
          = none :: side low :=
        List.drop_left
      have hside : side (g :: rest) = some g :: rest.map some := rfl
      rw [hside, List.cons_append]
      simp only [assemble?, htake, hdrop, mapM_id_some, low?_side]

theorem assemble?_full {groups : List UInt16} (h : groups ≠ [])
    : assemble? (groups.map some) = some groups := by
  obtain ⟨g, rest, rfl⟩ := List.exists_cons_of_ne_nil h
  have htake : (some g :: rest.map some).takeWhile Option.isSome = (g :: rest).map some := by
    have h := takeWhile_isSome (g :: rest) [] rfl
    rw [List.append_nil] at h
    exact h
  have hdrop : (some g :: rest.map some).drop ((g :: rest).map some).length = [] :=
    List.drop_eq_nil_of_le (by simp)
  rw [List.map_cons]
  simp only [assemble?, htake, hdrop, mapM_id_some]

theorem fill?_replicate {front back : List UInt16} {n : Nat} (hn : 1 ≤ n)
    (h : (front ++ List.replicate n 0 ++ back).length = 8)
    : fill? front back = some (front ++ List.replicate n 0 ++ back) := by
  simp only [List.length_append, List.length_replicate] at h
  have hfit : front.length + back.length ≤ 7 := by omega
  have hwidth : 8 - (front.length + back.length) = n := by omega
  rw [fill?, if_pos hfit, hwidth]

-----------------------------------------------------------------------------------------
-- Version 6
-----------------------------------------------------------------------------------------

theorem pieces?_of_not_dot {cs : List Char} (h : '.' ∉ cs)
    : pieces? cs = (splitOn ':' cs).mapM piece? := by
  have hlast := List.getLast?_eq_some_getLast (splitOn_ne_nil ':' cs)
  have hdot : ((splitOn ':' cs).getLast (splitOn_ne_nil ':' cs)).contains '.' = false := by
    rw [List.contains_eq_mem, decide_eq_false_iff_not]
    exact fun hmem => h (mem_of_mem_splitOn (List.getLast_mem _) hmem)
  simp only [pieces?, hlast, hdot]
  rfl

/-- The pieces of a text with a gap in it. -/
theorem splitOn_gap (front back : List Char)
    : splitOn ':' (front ++ [':', ':'] ++ back) = splitOn ':' front ++ [] :: splitOn ':' back := by
  rw [List.append_assoc, List.cons_append, splitOn_append]
  rfl

theorem pieces?_gap (high low : List UInt16)
    : pieces? (joined high ++ [':', ':'] ++ joined low)
      = some (side high ++ none :: side low) := by
  have hdot : '.' ∉ joined high ++ [':', ':'] ++ joined low := by
    intro h
    have hsides : '.' ∈ joined high ∨ '.' ∈ joined low := by simpa using h
    rcases hsides with h | h
    · exact dot_not_mem_joined _ h
    · exact dot_not_mem_joined _ h
  have hempty : piece? [] = some none := rfl
  rw [pieces?_of_not_dot hdot, splitOn_gap, List.mapM_append, mapM_joined, List.mapM_cons,
    mapM_joined, hempty]
  rfl

/-- The canonical form of an address reads back: the gap stands for the longest run of zero
groups.
-/
theorem ofChars?_chars (a : Ipv6) : ofChars? a.chars = some a := by
  have hne : a.groups ≠ [] := by
    intro h
    have := a.length_eq
    simp [h] at this
  have hread : (pieces? a.chars).bind assemble? = some a.groups := by
    obtain ⟨front, back, hgroups, hstart⟩ := longestRun_spec 0 a.groups
    rcases hrun : longestRun 0 a.groups with ⟨start, n⟩
    rw [hrun] at hgroups hstart
    dsimp only at hgroups hstart
    rw [Nat.zero_add] at hstart
    simp only [chars, hrun]
    split
    · have hdot := dot_not_mem_joined a.groups
      obtain ⟨g, rest, hcons⟩ := List.exists_cons_of_ne_nil hne
      have hside : side a.groups = a.groups.map some := by rw [hcons]; rfl
      rw [pieces?_of_not_dot hdot, mapM_joined, hside]
      exact assemble?_full hne
    · have hfront : a.groups.take start = front := by
        rw [hgroups, hstart, List.append_assoc, List.take_left]
      have hback : a.groups.drop (start + n) = back := by
        rw [hgroups, hstart]
        exact List.drop_left' (by simp)
      have hlength := a.length_eq
      rw [hgroups] at hlength
      rw [hfront, hback, pieces?_gap, Option.bind_some, assemble?_gap,
        fill?_replicate (by omega) hlength, ← hgroups]
  simp [ofChars?, hread, a.length_eq]

/-- The characters of the canonical form are colons and hexadecimal digits. -/
theorem mem_chars {a : Ipv6} {c : Char} (h : c ∈ a.chars)
    : c = ':' ∨ ∃ d < 16, c = Nat.digitChar d := by
  rcases hrun : longestRun 0 a.groups with ⟨start, n⟩
  simp only [chars, hrun] at h
  split at h
  · exact mem_joined h
  · rcases List.mem_append.1 h with h | h
    · rcases List.mem_append.1 h with h | h
      · exact mem_joined h
      · exact .inl (by simpa using h)
    · exact mem_joined h

/-- The canonical form has a colon, and no sign that stands around an address. -/
theorem chars_signs (a : Ipv6)
    : ':' ∈ a.chars ∧ ∀ c ∈ a.chars, c ≠ '/' ∧ c ≠ '%' := by
  constructor
  · rcases hrun : longestRun 0 a.groups with ⟨start, n⟩
    simp only [chars, hrun]
    split
    · match hgroups : a.groups, a.length_eq with
      | g :: h :: rest, _ => simp [joined, List.intercalate_cons_cons]
    · simp
  · intro c hc
    rcases mem_chars hc with rfl | ⟨d, hd, rfl⟩
    · decide
    · exact (digitChar_not_sign d hd).2.2

theorem ofIpv4_lowAddress (a : Ipv6) : ofIpv4 a.lowAddress = a.groups.drop 6 := by
  have hgroup (g : UInt16)
      : UInt16.ofNat ((UInt8.ofNat (g.toNat / 256)).toNat * 256
          + (UInt8.ofNat (g.toNat % 256)).toNat)
        = g := by
    have hg := g.toNat_lt
    have hhigh : (UInt8.ofNat (g.toNat / 256)).toNat = g.toNat / 256 := by
      simp; omega
    have hlow : (UInt8.ofNat (g.toNat % 256)).toNat = g.toNat % 256 := by
      simp
    rw [hhigh, hlow, Nat.div_add_mod']
    exact UInt16.ofNat_toNat
  have hlength : (a.groups.drop 6).length = 2 := by simp [a.length_eq]
  match hlow : a.groups.drop 6, hlength with
  | [g, h], _ =>
      have hbytes : a.lowAddress.bytes
          = [UInt8.ofNat (g.toNat / 256), UInt8.ofNat (g.toNat % 256),
              UInt8.ofNat (h.toNat / 256), UInt8.ofNat (h.toNat % 256)] := by
        simp [lowAddress, hlow]
      simp only [ofIpv4, hbytes, hgroup]

/-- Text with an address of version 4 behind its last colon is read up to there, and then as
the two groups of that address.
-/
theorem pieces?_mixed {front : List Char} {pieces : List (Option UInt16)} (a : Ipv4)
    (h : (splitOn ':' front).mapM piece? = some pieces)
    : pieces? (front ++ ':' :: a.chars) = some (pieces ++ (ofIpv4 a).map some) := by
  have hcolon : ':' ∉ a.chars := fun h => by
    rcases Ipv4.mem_chars h with h | h
    · exact absurd h (by decide)
    · exact absurd h (by decide)
  have hsplit : splitOn ':' (front ++ ':' :: a.chars) = splitOn ':' front ++ [a.chars] := by
    rw [splitOn_append, splitOn_of_not_mem hcolon]
  simp [pieces?, hsplit, a.dot_mem_chars, h, Ipv4.ofChars?_chars]

/-- Groups behind a gap at the start read as the address that has zero groups in front. -/
theorem ofChars?_of_zeros {a : Ipv6} {cs : List Char} {n : Nat} {back : List UInt16}
    (hn : 1 ≤ n) (hback : back ≠ []) (hgroups : a.groups = List.replicate n 0 ++ back)
    (hread : pieces? cs = some (none :: none :: back.map some))
    : ofChars? cs = some a := by
  obtain ⟨g, rest, rfl⟩ := List.exists_cons_of_ne_nil hback
  have hlength := a.length_eq
  rw [hgroups] at hlength
  have hgap : assemble? (none :: none :: (g :: rest).map some) = some a.groups := by
    rw [show none :: none :: (g :: rest).map some = side [] ++ none :: side (g :: rest) from rfl,
      assemble?_gap, fill?_replicate hn hlength, hgroups, List.nil_append]
  simp only [ofChars?, hread, Option.bind_some, hgap, a.length_eq, dite_true]

/-- The presentation form of an address reads back: behind zero groups the low address stands
for the last two.
-/
theorem ofChars?_presentationChars (a : Ipv6) : ofChars? a.presentationChars = some a := by
  obtain ⟨front, back, hgroups, hstart⟩ := longestRun_spec 0 a.groups
  rcases hrun : longestRun 0 a.groups with ⟨start, n⟩
  rw [hrun] at hgroups hstart
  dsimp only at hgroups hstart
  rw [Nat.zero_add] at hstart
  have hlength := a.length_eq
  rw [hgroups] at hlength
  simp only [List.length_append, List.length_replicate] at hlength
  have hlow := ofIpv4_lowAddress a
  simp only [presentationChars, hrun]
  split
  · next h =>
    simp only [Bool.and_eq_true, decide_eq_true_eq] at h
    obtain ⟨rfl, rfl⟩ := h
    obtain rfl : front = [] := List.length_eq_zero_iff.1 hstart.symm
    rw [hgroups] at hlow
    refine ofChars?_of_zeros (by decide) ?_ hgroups ?_
    · rintro rfl
      simp at hlength
    · have hgap : (splitOn ':' [':']).mapM piece? = some [none, none] := rfl
      rw [show [':', ':'] ++ a.lowAddress.chars = [':'] ++ ':' :: a.lowAddress.chars from rfl,
        pieces?_mixed _ hgap, hlow]
      rfl
  · split
    · next h =>
      simp only [Bool.and_eq_true, decide_eq_true_eq] at h
      obtain ⟨⟨rfl, rfl⟩, hmark⟩ := h
      obtain rfl : front = [] := List.length_eq_zero_iff.1 hstart.symm
      rw [hgroups] at hlow hmark
      have hback : back.length = 3 := by
        simp only [List.length_nil] at hlength
        omega
      match back, hback with
      | [g, _, _], _ =>
          obtain rfl : g = 0xffff := Option.some.inj hmark
          refine ofChars?_of_zeros (by decide) (by simp) hgroups ?_
          have hgap : (splitOn ':' "::ffff".toList).mapM piece?
              = some [none, none, some 0xffff] :=
            rfl
          rw [show "::ffff:".toList ++ a.lowAddress.chars
              = "::ffff".toList ++ ':' :: a.lowAddress.chars from rfl,
            pieces?_mixed _ hgap, hlow]
          rfl
    · exact ofChars?_chars a

/-- The characters of the presentation form are those of addresses, and there is a colon. -/
theorem presentationChars_signs (a : Ipv6)
    : ':' ∈ a.presentationChars ∧ ∀ c ∈ a.presentationChars, c ≠ '/' ∧ c ≠ '%' := by
  have hmixed (front : List Char) (hcolon : ':' ∈ front)
      (hfront : front.all (fun c => c ≠ '/' && c ≠ '%') = true)
      : ':' ∈ front ++ a.lowAddress.chars
        ∧ ∀ c ∈ front ++ a.lowAddress.chars, c ≠ '/' ∧ c ≠ '%' := by
    refine ⟨List.mem_append_left _ hcolon, ?_⟩
    intro c hc
    rcases List.mem_append.1 hc with hc | hc
    · simpa using List.all_eq_true.1 hfront c hc
    · rcases Ipv4.mem_chars hc with hc | rfl
      · constructor <;> rintro rfl <;> exact absurd hc (by decide)
      · decide
  simp only [presentationChars]
  split
  · exact hmixed _ (by decide) (by decide)
  · split
    · exact hmixed _ (by decide) (by decide)
    · exact a.chars_signs

end Ipv6

-----------------------------------------------------------------------------------------
-- Addresses of both versions, and their families
-----------------------------------------------------------------------------------------

namespace Address

/-- Text of version 6 without signs around it is an address without a scope. -/
theorem ofChars?_of_ipv6 {cs : List Char} {a : Ipv6} (hcolon : ':' ∈ cs)
    (hsigns : ∀ c ∈ cs, c ≠ '/' ∧ c ≠ '%') (h : Ipv6.ofChars? cs = some a)
    : ofChars? cs = some (.v6 a none) := by
  have hslash : cs.contains '/' = false := by
    rw [List.contains_eq_mem, decide_eq_false_iff_not]
    exact fun hmem => (hsigns _ hmem).1 rfl
  have hfront : cs.takeWhile (· ≠ '%') = cs := by
    have hall : (cs ++ []).takeWhile (· ≠ '%') = cs ++ [].takeWhile (· ≠ '%') :=
      List.takeWhile_append_of_pos (by simpa using fun c hc => (hsigns c hc).2)
    simpa using hall
  simp only [ofChars?, hslash, Ipv4.ofChars?_of_colon hcolon, scoped?, hfront, List.drop_length,
    h]
  rfl

theorem ofChars?_of_ipv4 (a : Ipv4) : ofChars? a.chars = some (.v4 a) := by
  have hslash : '/' ∉ a.chars := by
    intro hmem
    rcases Ipv4.mem_chars hmem with h | h
    · exact absurd h (by decide)
    · exact absurd h (by decide)
  simp [ofChars?, hslash, Ipv4.ofChars?_chars]

/-- The address without its scope. -/
def unscoped : Address → Address
  | .v4 a => .v4 a
  | .v6 a _ => .v6 a none

theorem ofText?_text (a : Address) : ofText? a.unscoped.text = some a.unscoped := by
  cases a with
  | v4 a => simp [ofText?, unscoped, text, Ipv4.text, ofChars?_of_ipv4]
  | v6 a scope =>
      have := ofChars?_of_ipv6 a.chars_signs.1 a.chars_signs.2 a.ofChars?_chars
      simp [ofText?, unscoped, text, this]

/-- The presentation form of an address, which shows no scope, reads back. -/
theorem ofText?_presentation (a : Address) : ofText? a.presentation = some a.unscoped := by
  cases a with
  | v4 a => simp [ofText?, unscoped, presentation, Ipv4.text, ofChars?_of_ipv4]
  | v6 a scope =>
      have := ofChars?_of_ipv6 a.presentationChars_signs.1 a.presentationChars_signs.2
        a.ofChars?_presentationChars
      simp [ofText?, unscoped, presentation, this]

theorem family_unscoped (a : Address) : a.unscoped.family = a.family := by
  cases a <;> rfl

/-- The family of an address can be told from its presentation form. -/
theorem familyOf?_presentation (a : Address) : familyOf? a.presentation = some a.family := by
  rw [familyOf?, ofText?_presentation, Option.map_some, family_unscoped]

theorem familyOf?_text (a : Address) : familyOf? a.unscoped.text = some a.family := by
  rw [familyOf?, ofText?_text, Option.map_some, family_unscoped]

/-- A presentation form that is the canonical text of a literal is that of its own address: the
text has no scope, since no presentation form has a percent sign, and it reads as the address.
-/
theorem text_of_canonicalAddress {raw : String} {a : Address}
    (h : canonicalAddress raw = .ok a.presentation)
    : a.unscoped.text = a.presentation := by
  obtain ⟨b, hb⟩ : ∃ b : Address, b.text = a.presentation := by
    unfold canonicalAddress canonicalAddress? at h
    split at h
    · next s hs =>
      obtain ⟨b, -, hb⟩ := Option.map_eq_some_iff.1 hs
      exact ⟨b, hb.trans (Except.ok.inj h)⟩
    · cases h
  have hpercent : '%' ∉ a.presentation.toList := by
    cases a with
    | v4 a =>
        intro hmem
        rw [presentation, Ipv4.text, String.toList_ofList] at hmem
        rcases Ipv4.mem_chars hmem with hdigit | hdot
        · exact absurd hdigit (by decide)
        · exact absurd hdot (by decide)
    | v6 a scope =>
        rw [presentation, String.toList_ofList]
        exact fun hmem => (a.presentationChars_signs.2 _ hmem).2 rfl
  have hscope : b.unscoped = b := by
    cases b with
    | v4 b => rfl
    | v6 b scope =>
        cases scope with
        | none => rfl
        | some s =>
            rw [← hb] at hpercent
            simp [text] at hpercent
  have hread : b = a.unscoped := by
    have htext := ofText?_text b
    rw [hscope, hb, ofText?_presentation] at htext
    exact (Option.some.inj htext).symm
  rw [← hread, hb]

end Address

end NameserverAudit
