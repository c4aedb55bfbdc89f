import NameserverAudit.Json.Printer
import NameserverAudit.Json.Reader
import NameserverAudit.Proofs.Number.Decimal

/-!
Numbers in JSON text. A number is read as far as its characters go, so what is said here is said
of a number with any text after it that does not go on with one. Main statement: the text of a
number reads as the number.
-/

namespace NameserverAudit.Json

open NameserverAudit.Double (Decimal standard)

-----------------------------------------------------------------------------------------
-- Runs of digits
-----------------------------------------------------------------------------------------

/-- What may follow a value in printed text: nothing, a comma or the end of the line. -/
def Ends (rest : List Char) : Prop :=
  ∀ c, rest.head? = some c → c = ',' ∨ c = '\n'

/-- The text does not go on with a digit. -/
def NoDigit (rest : List Char) : Prop :=
  ∀ c, rest.head? = some c → isDigit c = false

theorem Ends.noDigit {rest : List Char} (h : Ends rest) : NoDigit rest := by
  intro c hc
  rcases h c hc with rfl | rfl <;> decide

theorem isDigit_of_mem_toDigits {n : Nat} {c : Char} (h : c ∈ Nat.toDigits 10 n)
    : isDigit c = true :=
  Nat.isDigit_of_mem_toDigits (by decide) (by decide) h

theorem isDigit_of_mem_zeros {n : Nat} {c : Char} (h : c ∈ List.replicate n '0')
    : isDigit c = true := by
  rw [List.eq_of_mem_replicate h]
  decide

/-- A run of digits is read in full. -/
theorem takeWhile_digits {digits rest : List Char} (all : ∀ c ∈ digits, isDigit c = true)
    (stop : NoDigit rest)
    : (digits ++ rest).takeWhile isDigit = digits := by
  have none : rest.takeWhile isDigit = [] := by
    cases rest with
    | nil => rfl
    | cons c more => simp [stop c rfl]
  rw [List.takeWhile_append_of_pos all, none, List.append_nil]

/-- The digits of a positive number do not begin with a zero. -/
theorem toDigits_eq_cons {n : Nat} (hn : 0 < n)
    : ∃ c more, Nat.toDigits 10 n = c :: more ∧ c ≠ '0' := by
  induction n using Nat.strongRecOn with
  | ind n ih =>
      by_cases small : n < 10
      · refine ⟨n.digitChar, [], Nat.toDigits_of_lt_base small, ?_⟩
        have digits : ∀ d < 10, 0 < d → d.digitChar ≠ '0' := by decide
        exact digits n small hn
      · have pos : 0 < n / 10 := by omega
        obtain ⟨c, more, heq, hc⟩ := ih (n / 10) (Nat.div_lt_self hn (by decide)) pos
        refine ⟨c, more ++ [(n % 10).digitChar], ?_, hc⟩
        rw [Nat.toDigits_of_base_le (by decide) (by omega), heq]
        rfl

theorem ofDigits_toDigits (n : Nat) : ofDigits (Nat.toDigits 10 n) = n :=
  Nat.ofDigitChars_ten_toDigits

/-- Zeros in front of digits do not count. -/
theorem ofDigits_zeros_append (k : Nat) (digits : List Char)
    : ofDigits (List.replicate k '0' ++ digits) = ofDigits digits := by
  have : Nat.ofDigitChars 10 (List.replicate k '0' ++ digits) 0
      = Nat.ofDigitChars 10 digits 0 := by
    rw [Nat.ofDigitChars_append, Nat.ofDigitChars_replicate_zero, Nat.mul_zero]
  exact this

/-- Zeros after digits count as a power of ten. -/
theorem ofDigits_append_zeros (digits : List Char) (k : Nat)
    : ofDigits (digits ++ List.replicate k '0') = ofDigits digits * 10 ^ k := by
  have : Nat.ofDigitChars 10 (digits ++ List.replicate k '0') 0
      = Nat.ofDigitChars 10 digits 0 * 10 ^ k := by
    rw [Nat.ofDigitChars_append, Nat.ofDigitChars_replicate_zero, Nat.mul_comm]
  exact this

-----------------------------------------------------------------------------------------
-- The parts of a number
-----------------------------------------------------------------------------------------

theorem wholePart?_digits {c : Char} {more rest : List Char} (hc : c ≠ '0')
    (all : ∀ d ∈ c :: more, isDigit d = true) (stop : NoDigit rest)
    : wholePart? (c :: more ++ rest) = some (c :: more, rest) := by
  have run := takeWhile_digits all stop
  rw [List.cons_append] at run ⊢
  rw [wholePart?]
  · simp only [run, List.isEmpty_cons, Bool.false_eq_true, if_false, List.length_cons,
      List.drop_succ_cons, List.drop_left]
  · exact fun _ h => hc (List.cons.inj h).1

theorem fractionPart_digits {digits rest : List Char} (some_digits : digits ≠ [])
    (all : ∀ c ∈ digits, isDigit c = true) (stop : NoDigit rest)
    : fractionPart ('.' :: digits ++ rest) = (digits, rest) := by
  have nonempty : digits.isEmpty = false := by simpa using some_digits
  simp only [fractionPart, List.cons_append, takeWhile_digits all stop, nonempty,
    Bool.false_eq_true, if_false, List.drop_left]

theorem fractionPart_zero {rest : List Char} (stop : NoDigit rest)
    : fractionPart ('.' :: ['0'] ++ rest) = (['0'], rest) :=
  fractionPart_digits (by simp) (fun c hc => by rw [List.mem_singleton.1 hc]; rfl) stop

theorem fractionPart_none {rest : List Char} (h : rest.head? ≠ some '.')
    : fractionPart rest = ([], rest) := by
  cases rest with
  | nil => rfl
  | cons c more =>
      have : c ≠ '.' := fun e => h (by rw [e]; rfl)
      simp [fractionPart, this]

theorem exponentPart_digits (negative : Bool) {digits rest : List Char}
    (some_digits : digits ≠ []) (all : ∀ c ∈ digits, isDigit c = true) (stop : NoDigit rest)
    : exponentPart ('e' :: (if negative then '-' else '+') :: digits ++ rest)
      = (some (if negative then -(ofDigits digits : Int) else ofDigits digits), rest) := by
  have nonempty : digits.isEmpty = false := by simpa using some_digits
  cases negative <;>
    simp [exponentPart, Reading.sign, takeWhile_digits all stop, nonempty]

theorem exponentPart_none {rest : List Char} (h : Ends rest)
    : exponentPart rest = (none, rest) := by
  cases rest with
  | nil => rfl
  | cons c more => rcases h c rfl with rfl | rfl <;> rfl

-----------------------------------------------------------------------------------------
-- Numbers
-----------------------------------------------------------------------------------------

/-- A number with a fraction or an exponent is a floating-point number. -/
theorem unsigned?_float {negative : Bool} {cs whole fraction rest rest' rest'' : List Char}
    {exponent : Option Int} (hwhole : wholePart? cs = some (whole, rest))
    (hfraction : fractionPart rest = (fraction, rest'))
    (hexponent : exponentPart rest' = (exponent, rest''))
    (real : fraction.isEmpty = false ∨ exponent.isSome = true)
    : unsigned? negative cs
      = some (.ok (.float
          ((⟨ofDigits (whole ++ fraction), exponent.getD 0 - fraction.length⟩ : Decimal).toDouble
            negative), rest'')) := by
  have not_whole : (fraction.isEmpty && exponent.isNone) = false := by
    rcases real with h | h
    · simp [h]
    · cases exponent <;> simp_all
  simp only [unsigned?, hwhole, hfraction, hexponent, not_whole, Bool.false_eq_true, if_false]

theorem noDigit_cons {c : Char} {rest : List Char} (h : isDigit c = false)
    : NoDigit (c :: rest) := by
  intro x hx
  obtain rfl : c = x := by simpa using hx
  exact h

section Layouts

variable {negative : Bool} {m : Nat} {rest : List Char}

/-- Digits after a point and zeros. -/
theorem unsigned?_small (k : Nat) (ends : Ends rest)
    : unsigned? negative ('0' :: '.' :: (List.replicate k '0' ++ Nat.toDigits 10 m) ++ rest)
      = some (.ok (.float
          ((⟨m, -(k + (Nat.toDigits 10 m).length : Nat)⟩ : Decimal).toDouble negative),
          rest)) := by
  have all : ∀ c ∈ List.replicate k '0' ++ Nat.toDigits 10 m, isDigit c = true :=
    List.forall_mem_append.2 ⟨fun _ => isDigit_of_mem_zeros, fun _ => isDigit_of_mem_toDigits⟩
  have some_digits : List.replicate k '0' ++ Nat.toDigits 10 m ≠ [] :=
    List.append_ne_nil_of_right_ne_nil _ Nat.toDigits_ne_nil
  have value : ofDigits (['0'] ++ (List.replicate k '0' ++ Nat.toDigits 10 m)) = m := by
    rw [← List.append_assoc]
    exact (ofDigits_zeros_append (k + 1) _).trans (ofDigits_toDigits m)
  have whole : wholePart? ('0' :: '.' :: (List.replicate k '0' ++ Nat.toDigits 10 m) ++ rest)
      = some (['0'], '.' :: (List.replicate k '0' ++ Nat.toDigits 10 m ++ rest)) :=
    rfl
  rw [unsigned?_float whole
    (fractionPart_digits some_digits all ends.noDigit) (exponentPart_none ends)
    (.inl (List.isEmpty_eq_false_iff.2 some_digits)), value]
  simp only [Option.getD_none, List.length_append, List.length_replicate, Int.zero_sub]

/-- Digits and zeros before the point, one zero after it. -/
theorem unsigned?_whole (k : Nat) (pos : 0 < m) (ends : Ends rest)
    : unsigned? negative
        (Nat.toDigits 10 m ++ List.replicate k '0' ++ ('.' :: ['0']) ++ rest)
      = some (.ok (.float ((⟨m, k⟩ : Decimal).toDouble negative), rest)) := by
  obtain ⟨c, more, hcons, hc⟩ := toDigits_eq_cons pos
  have all : ∀ d ∈ c :: (more ++ List.replicate k '0'), isDigit d = true := by
    rw [← List.cons_append, ← hcons]
    exact List.forall_mem_append.2
      ⟨fun _ => isDigit_of_mem_toDigits, fun _ => isDigit_of_mem_zeros⟩
  have value : ofDigits (c :: (more ++ List.replicate k '0') ++ ['0']) = m * 10 ^ (k + 1) := by
    rw [← List.cons_append, ← hcons, List.append_assoc, ← List.replicate_succ',
      ofDigits_append_zeros, ofDigits_toDigits]
  have shifted : (0 : Int) - (1 : Nat) + (k + 1 : Nat) = k := by omega
  have whole : wholePart? (c :: (more ++ List.replicate k '0') ++ ('.' :: ['0'] ++ rest))
      = some (c :: (more ++ List.replicate k '0'), '.' :: ['0'] ++ rest) :=
    wholePart?_digits hc all (noDigit_cons rfl)
  rw [hcons, List.append_assoc, List.cons_append,
    unsigned?_float whole (fractionPart_zero ends.noDigit) (exponentPart_none ends) (.inl rfl),
    value]
  simp only [Option.getD_none, List.length_singleton, Decimal.toDouble_shift, shifted]

/-- A point among the digits. -/
theorem unsigned?_point {front back : List Char} (split : Nat.toDigits 10 m = front ++ back)
    (pos : 0 < m) (hfront : front ≠ []) (hback : back ≠ []) (ends : Ends rest)
    : unsigned? negative (front ++ '.' :: back ++ rest)
      = some (.ok (.float ((⟨m, -(back.length : Nat)⟩ : Decimal).toDouble negative), rest)) := by
  obtain ⟨c, more, hcons, hc⟩ := toDigits_eq_cons pos
  have all : ∀ d ∈ front ++ back, isDigit d = true := fun d hd =>
    isDigit_of_mem_toDigits (split ▸ hd)
  obtain ⟨x, tail, rfl⟩ := List.exists_cons_of_ne_nil hfront
  obtain rfl : x = c := by
    rw [split, List.cons_append] at hcons
    exact (List.cons.inj hcons).1
  have value : ofDigits (x :: tail ++ back) = m := by rw [← split, ofDigits_toDigits]
  have whole : wholePart? (x :: tail ++ ('.' :: back ++ rest))
      = some (x :: tail, '.' :: back ++ rest) :=
    wholePart?_digits hc (fun d hd => all d (List.mem_append_left _ hd)) (noDigit_cons rfl)
  have fraction : fractionPart ('.' :: back ++ rest) = (back, rest) :=
    fractionPart_digits hback (fun d hd => all d (List.mem_append_right _ hd)) ends.noDigit
  rw [List.append_assoc, unsigned?_float whole fraction (exponentPart_none ends)
    (.inl (List.isEmpty_eq_false_iff.2 hback)), value]
  simp only [Option.getD_none, Int.zero_sub]

/-- An exponent after the digits, of which the first one stands before the point. -/
theorem unsigned?_exponent {c : Char} {more digits : List Char} {e : Int}
    (split : Nat.toDigits 10 m = c :: more) (pos : 0 < m) (value : ofDigits digits = e.natAbs)
    (some_digits : digits ≠ []) (all : ∀ d ∈ digits, isDigit d = true) (ends : Ends rest)
    : unsigned? negative
        ([c] ++ (if more.isEmpty then [] else '.' :: more)
          ++ ['e', if e < 0 then '-' else '+'] ++ digits ++ rest)
      = some (.ok (.float ((⟨m, e - (more.length : Nat)⟩ : Decimal).toDouble negative),
          rest)) := by
  obtain ⟨x, tail, hcons, hx⟩ := toDigits_eq_cons pos
  obtain ⟨rfl, rfl⟩ : x = c ∧ tail = more := by simpa [split] using hcons.symm
  have digit : ∀ d ∈ x :: tail, isDigit d = true := fun d hd =>
    isDigit_of_mem_toDigits (split ▸ hd)
  have written : ofDigits (x :: tail) = m := by rw [← split, ofDigits_toDigits]
  have exponent : exponentPart ('e' :: (if e < 0 then '-' else '+') :: digits ++ rest)
      = (some e, rest) := by
    have := exponentPart_digits (e < 0) some_digits all ends.noDigit
    simp only [decide_eq_true_eq, value] at this
    rw [this]
    congr 2
    split <;> omega
  have stop : NoDigit ('e' :: (if e < 0 then '-' else '+') :: digits ++ rest) :=
    noDigit_cons rfl
  have no_point : fractionPart ('e' :: (if e < 0 then '-' else '+') :: digits ++ rest)
      = ([], 'e' :: (if e < 0 then '-' else '+') :: digits ++ rest) :=
    fractionPart_none (by simp)
  have shape : [x] ++ (if tail.isEmpty then [] else '.' :: tail)
        ++ ['e', if e < 0 then '-' else '+'] ++ digits ++ rest
      = [x] ++ ((if tail.isEmpty then [] else '.' :: tail)
        ++ ('e' :: (if e < 0 then '-' else '+') :: digits ++ rest)) := by
    simp
  rw [shape]
  generalize ('e' :: (if e < 0 then '-' else '+') :: digits ++ rest) = exponential at *
  have first : ∀ d ∈ [x], isDigit d = true := fun d hd => by
    rw [List.mem_singleton.1 hd]
    exact digit x (List.mem_cons_self ..)
  cases tail with
  | nil =>
      have whole : wholePart? ([x] ++ exponential) = some ([x], exponential) :=
        wholePart?_digits hx first stop
      rw [List.isEmpty_nil, if_pos rfl, List.nil_append,
        unsigned?_float whole no_point exponent (.inr rfl), List.append_nil, written]
      rfl
  | cons y ys =>
      have whole : wholePart? ([x] ++ ('.' :: (y :: ys) ++ exponential))
          = some ([x], '.' :: (y :: ys) ++ exponential) :=
        wholePart?_digits hx first (noDigit_cons rfl)
      have fraction : fractionPart ('.' :: (y :: ys) ++ exponential) = (y :: ys, exponential) :=
        fractionPart_digits (by simp) (fun d hd => digit d (List.mem_cons_of_mem _ hd)) stop
      rw [List.isEmpty_cons, if_neg Bool.false_ne_true,
        unsigned?_float whole fraction exponent (.inr rfl), List.singleton_append, written]
      rfl

end Layouts

/-- The decimal that is written is the one that is read, in each of the four layouts: small
fractions, whole numbers, numbers with a point among their digits, and numbers with an exponent.
-/
theorem unsigned?_render (negative : Bool) {d : Decimal} {rest : List Char}
    (hd : 0 < d.digits) (ends : Ends rest)
    : unsigned? negative (standard.render d ++ rest)
      = some (.ok (.float (d.toDouble negative), rest)) := by
  obtain ⟨m, zeros, heq, hm⟩ := Double.Decimal.significant_eq hd
  have pos : 0 < m := Nat.pos_of_ne_zero fun e => by simp [e] at hm; omega
  have value : d.toDouble negative = (⟨m, d.exponent + zeros⟩ : Decimal).toDouble negative := by
    rw [← Double.Decimal.toDouble_shift, ← hm]
  rw [value]
  simp only [Double.Layout.render, heq, standard]
  generalize hpoint : ((Nat.toDigits 10 m).length : Int) + zeros + d.exponent = point
  split
  · split
    · next small =>
      have exponent : d.exponent + zeros
          = -((-point).toNat + (Nat.toDigits 10 m).length : Nat) := by omega
      rw [exponent, ← unsigned?_small (-point).toNat ends]
      simp
    split
    · next whole =>
      have exponent : d.exponent + zeros
          = (point.toNat - (Nat.toDigits 10 m).length : Nat) := by omega
      rw [exponent, ← unsigned?_whole _ pos ends]
    · next part =>
      have exponent : d.exponent + zeros
          = -(((Nat.toDigits 10 m).drop point.toNat).length : Nat) := by
        rw [List.length_drop]
        omega
      rw [exponent, ← unsigned?_point (List.take_append_drop _ _).symm pos _ _ ends]
      · simp only [ne_eq, List.take_eq_nil_iff, Nat.toDigits_ne_nil, or_false]
        omega
      · simp only [ne_eq, List.drop_eq_nil_iff]
        omega
  · obtain ⟨c, more, hcons, -⟩ := toDigits_eq_cons pos
    have exponent : d.exponent + zeros = point - 1 - (more.length : Nat) := by
      rw [hcons, List.length_cons] at hpoint
      omega
    have padded (n : Nat) : ofDigits (Double.padLeft 2 (Nat.toDigits 10 n)) = n := by
      rw [Double.padLeft, ofDigits_zeros_append, ofDigits_toDigits]
    rw [exponent, ← unsigned?_exponent hcons pos (padded (point - 1).natAbs) _ _ ends, hcons]
    · rfl
    · exact List.append_ne_nil_of_right_ne_nil _ Nat.toDigits_ne_nil
    · exact List.forall_mem_append.2
        ⟨fun _ => isDigit_of_mem_zeros, fun _ => isDigit_of_mem_toDigits⟩

/-- Digits alone are an integer. -/
theorem unsigned?_digits (negative : Bool) {m : Nat} {rest : List Char}
    (short : (Nat.toDigits 10 m).length ≤ Reading.maxDigits) (ends : Ends rest)
    : unsigned? negative (Nat.toDigits 10 m ++ rest)
      = some (.ok (.int (if negative then -(m : Int) else m), rest)) := by
  have whole : wholePart? (Nat.toDigits 10 m ++ rest) = some (Nat.toDigits 10 m, rest) := by
    by_cases zero : m = 0
    · subst zero
      rfl
    · obtain ⟨c, more, hcons, hc⟩ := toDigits_eq_cons (Nat.pos_of_ne_zero zero)
      have all : ∀ d ∈ Nat.toDigits 10 m, isDigit d = true := fun _ => isDigit_of_mem_toDigits
      rw [hcons] at all ⊢
      exact wholePart?_digits hc all ends.noDigit
  have no_point : fractionPart rest = ([], rest) :=
    fractionPart_none fun h => by rcases ends '.' h with e | e <;> cases e
  simp only [unsigned?, whole, no_point, exponentPart_none ends, List.isEmpty_nil,
    Option.isNone_none, Bool.and_true, if_true, if_neg (Nat.not_lt.2 short), ofDigits_toDigits]

-----------------------------------------------------------------------------------------
-- Numbers among the scalars
-----------------------------------------------------------------------------------------

/-- A number begins with a digit. -/
theorem head_of_unsigned? {negative : Bool} {cs : List Char} {out : Read Json}
    (h : unsigned? negative cs = some out)
    : ∃ c more, cs = c :: more ∧ isDigit c = true := by
  cases cs with
  | nil => cases h
  | cons c more =>
      refine ⟨c, more, rfl, ?_⟩
      by_contra no_digit
      have other : c ≠ '0' := by
        rintro rfl
        exact no_digit rfl
      have : wholePart? (c :: more) = none := by
        rw [wholePart?]
        · simp [no_digit]
        · exact fun _ e => other (List.cons.inj e).1
      simp [unsigned?, this] at h

/-- A word is not there if one of its characters is not. -/
theorem after?_eq_none {word : String} {cs : List Char} {i : Nat} {x y : Char}
    (hx : word.toList[i]? = some x) (hy : cs[i]? = some y) (differ : x ≠ y)
    : after? word cs = none := by
  refine if_neg fun h => differ ?_
  obtain ⟨back, rfl⟩ := List.isPrefixOf_iff_prefix.1 h
  have inside : i < word.toList.length := (List.getElem?_eq_some_iff.1 hx).1
  rw [List.getElem?_append_left inside, hx] at hy
  exact Option.some.inj hy

/-- No word begins with a digit, or with a sign and a digit. -/
theorem word?_digit {c : Char} {more : List Char} (h : isDigit c = true)
    : word? (c :: more) = none ∧ word? ('-' :: c :: more) = none := by
  have firsts : ∀ entry ∈ words, ∃ x, entry.1.toList[0]? = some x ∧ isDigit x = false
      ∧ (x = '-' → ∃ y, entry.1.toList[1]? = some y ∧ isDigit y = false) := by
    simp [words, isDigit]
  have differ {x : Char} (hx : isDigit x = false) : x ≠ c := by
    rintro rfl
    rw [h] at hx
    cases hx
  constructor
  · rw [word?, List.findSome?_eq_none_iff]
    intro entry he
    obtain ⟨x, first, hx, -⟩ := firsts entry he
    rw [after?_eq_none first rfl (differ hx)]
    rfl
  · rw [word?, List.findSome?_eq_none_iff]
    intro entry he
    obtain ⟨x, first, -, second⟩ := firsts entry he
    by_cases sign : x = '-'
    · obtain ⟨y, hy, no_digit⟩ := second sign
      rw [after?_eq_none hy rfl (differ no_digit)]
      rfl
    · rw [after?_eq_none first rfl sign]
      rfl

theorem scalar_unsigned {negative : Bool} {cs : List Char} {out : Read Json}
    (h : unsigned? negative cs = some out)
    : scalar ((if negative then ['-'] else []) ++ cs) = out := by
  obtain ⟨c, more, rfl, digit⟩ := head_of_unsigned? h
  have other : c ≠ '-' := by
    rintro rfl
    cases digit
  cases negative with
  | false => simp [scalar, (word?_digit digit).1, number?, other, h]
  | true => simp [scalar, (word?_digit digit).2, number?, h]

theorem scalar_zero (negative : Bool) {rest : List Char} (ends : Ends rest)
    : scalar ((if negative then ['-'] else []) ++ ['0', '.', '0'] ++ rest)
      = .ok (.float (.finite negative 0), rest) := by
  have whole : wholePart? (['0', '.', '0'] ++ rest) = some (['0'], '.' :: ['0'] ++ rest) := rfl
  have none : ofDigits (['0'] ++ ['0']) = 0 := rfl
  rw [List.append_assoc,
    scalar_unsigned
      (unsigned?_float whole (fractionPart_zero ends.noDigit) (exponentPart_none ends) (.inl rfl)),
    none]
  simp only [Decimal.toDouble, if_true]

theorem scalar_shortest (negative : Bool) {units : Nat} {rest : List Char} (zero : units ≠ 0)
    (proper : (Double.finite negative units).Proper) (ends : Ends rest)
    : scalar ((if negative then ['-'] else []) ++ standard.render (Decimal.shortest units) ++ rest)
      = .ok (.float (.finite negative units), rest) := by
  have reads := Decimal.readsAs_shortest proper.1 proper.2
  have digits : 0 < (Decimal.shortest units).digits := by
    refine Nat.pos_of_ne_zero fun e => zero ?_
    simpa [Decimal.ReadsAs, Decimal.toDouble, e, eq_comm] using reads
  rw [List.append_assoc, scalar_unsigned (unsigned?_render negative digits ends),
    Decimal.toDouble_of_readsAs reads]

/-- The text of a number reads as the number. -/
theorem scalar_floatText {x : Double} {rest : List Char} (proper : x.Proper) (ends : Ends rest)
    : scalar (floatText x ++ rest) = .ok (.float x, rest) := by
  match x with
  | .nan => rfl
  | .infinite false => rfl
  | .infinite true => rfl
  | .finite negative units =>
      have text : floatText (.finite negative units)
          = (if negative then ['-'] else [])
            ++ (if units = 0 then ['0', '.', '0']
              else standard.render (Decimal.shortest units)) := by
        simp only [floatText, Double.textWith, String.toList_append]
        by_cases zero : units = 0
        · simp only [zero, if_true]
          cases negative <;> rfl
        · simp only [zero, if_false, String.toList_ofList]
          cases negative <;> rfl
      rw [text]
      by_cases zero : units = 0
      · subst zero
        exact scalar_zero negative ends
      · rw [if_neg zero]
        exact scalar_shortest negative zero proper ends

theorem scalar_int {n : Int} {rest : List Char}
    (short : (Nat.toDigits 10 n.natAbs).length ≤ Reading.maxDigits) (ends : Ends rest)
    : scalar ((toString n).toList ++ rest) = .ok (.int n, rest) := by
  have text : (toString n).toList
      = (if decide (n < 0) then ['-'] else []) ++ Nat.toDigits 10 n.natAbs := by
    match n with
    | .ofNat m =>
        have whole : toString (Int.ofNat m) = toString m := rfl
        rw [whole, Nat.toString_eq_ofList_toDigits, String.toList_ofList]
        rfl
    | .negSucc m =>
        have signed : toString (Int.negSucc m) = "-" ++ toString (m + 1) := rfl
        rw [signed, Nat.toString_eq_ofList_toDigits, String.toList_append]
        rw [if_pos (decide_eq_true (Int.negSucc_lt_zero m))]
        simp only [String.toList_ofList]
        rfl
  rw [text, List.append_assoc, scalar_unsigned (unsigned?_digits _ short ends)]
  congr 3
  by_cases negative : n < 0
  · rw [if_pos (decide_eq_true negative)]
    omega
  · rw [if_neg (by simpa using negative)]
    omega

end NameserverAudit.Json
