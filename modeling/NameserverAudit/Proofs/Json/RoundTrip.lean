import NameserverAudit.Proofs.Json.Numbers
import NameserverAudit.Proofs.Json.Strings

/-!
Printed JSON text reads back. A value is printed so that its text does not run into what follows:
only commas and line ends come after it. Main statement: the text of a value with proper numbers,
integers that are not too long and objects that name each field once reads as the value.
-/

namespace NameserverAudit.Json

mutual

/-- The numbers of the value are proper, its integers are not too long, and its objects name
each field once.
-/
def Printable : Json → Prop
  | .int n => (Nat.toDigits 10 n.natAbs).length ≤ Reading.maxDigits
  | .float x => x.Proper
  | .array items => ItemsPrintable items
  | .object fields => (fields.map (·.1)).Nodup ∧ FieldsPrintable fields
  | .null | .bool _ | .str _ => True

def ItemsPrintable : List Json → Prop
  | [] => True
  | v :: rest => v.Printable ∧ ItemsPrintable rest

def FieldsPrintable : List (String × Json) → Prop
  | [] => True
  | (_, v) :: rest => v.Printable ∧ FieldsPrintable rest

end

theorem itemsPrintable_iff {items : List Json}
    : ItemsPrintable items ↔ ∀ v ∈ items, v.Printable := by
  induction items with
  | nil => simp [ItemsPrintable]
  | cons v rest ih => simp [ItemsPrintable, ih]

-----------------------------------------------------------------------------------------
-- Blanks and beginnings
-----------------------------------------------------------------------------------------

theorem skip_cons {c : Char} (more : List Char) (h : isSpace c = false)
    : skip (c :: more) = c :: more := by
  simp [skip, h]

/-- Skipping passes over the end of a line and the indentation of the next one. -/
theorem skip_newline (level : Nat) {cs : List Char}
    (h : ∀ c, cs.head? = some c → isSpace c = false)
    : skip (newline level ++ cs) = cs := by
  have blank : ∀ c ∈ newline level, isSpace c = true := by
    intro c hc
    rcases List.mem_cons.1 hc with rfl | hc
    · decide
    · rw [List.eq_of_mem_replicate hc]
      decide
  rw [skip, List.dropWhile_append_of_pos blank]
  cases cs with
  | nil => rfl
  | cons c more => exact skip_cons more (h c rfl)

/-- The characters that a value other than a string, a list or an object begins with. -/
def StartsScalar (c : Char) : Prop :=
  isDigit c = true ∨ c ∈ ['n', 't', 'f', 'N', 'I', '-']

instance (c : Char) : Decidable (StartsScalar c) :=
  inferInstanceAs (Decidable (_ ∨ _))

theorem startsScalar_of_scalar {cs : List Char} {out : Json × List Char}
    (h : scalar cs = .ok out)
    : ∃ c more, cs = c :: more ∧ StartsScalar c := by
  unfold scalar at h
  split at h
  · next found hword =>
    obtain ⟨entry, hentry, hafter⟩ := List.exists_of_findSome?_eq_some hword
    have firsts : ∀ entry ∈ words, ∃ x w, entry.1.toList = x :: w
        ∧ x ∈ ['n', 't', 'f', 'N', 'I', '-'] := by
      simp [words]
    obtain ⟨x, w, hchars, hx⟩ := firsts entry hentry
    cases after : after? entry.1 cs with
    | none => rw [after] at hafter; cases hafter
    | some rest =>
        simp only [after?] at after
        split at after
        · next isPrefix =>
          obtain ⟨back, rfl⟩ := List.isPrefixOf_iff_prefix.1 isPrefix
          exact ⟨x, w ++ back, by rw [hchars]; rfl, .inr hx⟩
        · cases after
  · cases number : number? cs with
    | none => rw [number] at h; cases h
    | some out =>
        unfold number? at number
        split at number
        · exact ⟨'-', _, rfl, .inr (by decide)⟩
        · obtain ⟨c, more, rfl, digit⟩ := head_of_unsigned? number
          exact ⟨c, more, rfl, .inl digit⟩

theorem StartsScalar.ne {c d : Char} (h : StartsScalar c) (hd : ¬StartsScalar d) : c ≠ d := by
  rintro rfl
  exact hd h

/-- The characters that a value begins with. -/
def StartsValue (c : Char) : Prop :=
  StartsScalar c ∨ c ∈ ['"', '[', '\x7b']

instance (c : Char) : Decidable (StartsValue c) :=
  inferInstanceAs (Decidable (_ ∨ _))

theorem StartsValue.ne {c d : Char} (h : StartsValue c) (hd : ¬StartsValue d) : c ≠ d := by
  rintro rfl
  exact hd h

theorem StartsValue.isSpace {c : Char} (h : StartsValue c) : isSpace c = false := by
  simp only [Json.isSpace, Bool.or_eq_false_iff, decide_eq_false_iff_not]
  exact ⟨⟨⟨h.ne (by decide), h.ne (by decide)⟩, h.ne (by decide)⟩, h.ne (by decide)⟩

theorem value_of_scalar {cs : List Char} {out : Json × List Char} (fuel : Nat)
    (h : scalar cs = .ok out)
    : value (fuel + 1) cs = .ok out := by
  obtain ⟨c, more, rfl, starts⟩ := startsScalar_of_scalar h
  rw [value]
  · exact h
  · exact fun rest e => starts.ne (by decide) (List.cons.inj e).1
  · exact fun rest e => starts.ne (by decide) (List.cons.inj e).1
  · exact fun rest e => starts.ne (by decide) (List.cons.inj e).1

-----------------------------------------------------------------------------------------
-- Steps of the reader
-----------------------------------------------------------------------------------------

section Steps

variable {fuel : Nat} {cs next middle rest : List Char} {item : Json} {items : List Json}
  {name : String} {fields : List (String × Json)}

theorem value_array (begins : next.head? ≠ some ']') (hskip : skip cs = next)
    (read : elements fuel next = .ok (items, rest))
    : value (fuel + 1) ('[' :: cs) = .ok (.array items, rest) := by
  simp only [value, hskip]
  split
  · exact absurd rfl begins
  · rw [read]

theorem value_object (begins : next.head? ≠ some '\x7d') (hskip : skip cs = next)
    (read : members fuel next = .ok (fields, rest))
    : value (fuel + 1) ('\x7b' :: cs) = .ok (ofFields fields, rest) := by
  simp only [value, hskip]
  split
  · exact absurd rfl begins
  · rw [read]

theorem elements_last (read : value fuel cs = .ok (item, middle))
    (hskip : skip middle = ']' :: rest)
    : elements (fuel + 1) cs = .ok ([item], rest) := by
  simp only [elements, read, hskip]

theorem elements_more (read : value fuel cs = .ok (item, middle))
    (hskip : skip middle = ',' :: next) (more : elements fuel (skip next) = .ok (items, rest))
    : elements (fuel + 1) cs = .ok (item :: items, rest) := by
  simp only [elements, read, hskip, more]

theorem members_last {body after_ : List Char}
    (named : stringBody ('"' :: body) [] body = .ok (name, ':' :: after_))
    (read : value fuel (skip after_) = .ok (item, middle)) (hskip : skip middle = '\x7d' :: rest)
    : members (fuel + 1) ('"' :: body) = .ok ([(name, item)], rest) := by
  simp only [members, named, skip_cons after_ (show isSpace ':' = false by decide), read, hskip]

theorem members_more {body after_ : List Char}
    (named : stringBody ('"' :: body) [] body = .ok (name, ':' :: after_))
    (read : value fuel (skip after_) = .ok (item, middle)) (hskip : skip middle = ',' :: next)
    (more : members fuel (skip next) = .ok (fields, rest))
    : members (fuel + 1) ('"' :: body) = .ok ((name, item) :: fields, rest) := by
  simp only [members, named, skip_cons after_ (show isSpace ':' = false by decide), read, hskip,
    more]

end Steps

/-- Fields with different names are the fields of their object. -/
theorem ofFields_of_nodup {fields : List (String × Json)} (h : (fields.map (·.1)).Nodup)
    : ofFields fields = .object fields := by
  have put_new {name : String} {value : Json} {out : List (String × Json)}
      (h : name ∉ out.map (·.1))
      : put name value out = out ++ [(name, value)] := by
    induction out with
    | nil => rfl
    | cons head rest ih =>
        obtain ⟨hne, hrest⟩ : ¬name = head.1 ∧ name ∉ rest.map (·.1) := by
          simpa only [List.map_cons, List.mem_cons, not_or] using h
        simp [put, Ne.symm hne, ih hrest]
  have all (out : List (String × Json)) (h : ((out ++ fields).map (·.1)).Nodup)
      : fields.foldl (fun out field => put field.1 field.2 out) out = out ++ fields := by
    induction fields generalizing out with
    | nil => simp
    | cons field rest ih =>
        have new : field.1 ∉ out.map (·.1) := by
          intro hmem
          rw [List.map_append, List.map_cons, List.nodup_append] at h
          exact h.2.2 _ hmem _ (List.mem_cons_self ..) rfl
        rw [List.foldl_cons, put_new new, ih]
        · simp
        · exact (List.nodup_cons.1 ‹_›).2
        · simpa using h
  rw [ofFields, all [] h, List.nil_append]

-----------------------------------------------------------------------------------------
-- Whole values
-----------------------------------------------------------------------------------------

theorem ends_comma (rest : List Char) : Ends (',' :: rest) := by
  intro c hc
  exact .inl (Option.some.inj hc).symm

theorem ends_newline (level : Nat) (rest : List Char) : Ends (newline level ++ rest) := by
  intro c hc
  exact .inr (Option.some.inj hc).symm

theorem intercalate_cons_cons (sep first second : List Char) (more : List (List Char))
    : List.intercalate sep (first :: second :: more)
      = first ++ (sep ++ List.intercalate sep (second :: more)) := by
  simp [List.intercalate]

theorem block_cons (open_ close : Char) (level : Nat) (first : List Char)
    (more : List (List Char)) (rest : List Char)
    : block open_ close level (first :: more) ++ rest
      = open_ :: (newline (level + 1)
        ++ (List.intercalate (',' :: newline (level + 1)) (first :: more)
          ++ (newline level ++ close :: rest))) := by
  simp [block]

/-- The pieces begin as the first of them. -/
theorem head?_intercalate (sep : List Char) {first : List Char} {c : Char} {cs : List Char}
    (h : first = c :: cs) (more : List (List Char)) (rest : List Char)
    : (List.intercalate sep (first :: more) ++ rest).head? = some c := by
  subst h
  cases more with
  | nil => simp [List.intercalate]
  | cons second more =>
      rw [intercalate_cons_cons]
      rfl

/-- A value that is not a string, a list or an object reads back. -/
theorem scalar_renderAt {v : Json} (hv : v.Printable) (level : Nat) {rest : List Char}
    (ends : Ends rest)
    : (∃ s, v = .str s) ∨ (∃ items, v = .array items) ∨ (∃ fields, v = .object fields)
      ∨ scalar (renderAt level v ++ rest) = .ok (v, rest) := by
  match v with
  | .null => exact .inr (.inr (.inr rfl))
  | .bool true => exact .inr (.inr (.inr rfl))
  | .bool false => exact .inr (.inr (.inr rfl))
  | .int n => exact .inr (.inr (.inr (by rw [renderAt]; exact scalar_int hv ends)))
  | .float x => exact .inr (.inr (.inr (by rw [renderAt]; exact scalar_floatText hv ends)))
  | .str s => exact .inl ⟨s, rfl⟩
  | .array items => exact .inr (.inl ⟨items, rfl⟩)
  | .object fields => exact .inr (.inr (.inl ⟨fields, rfl⟩))

theorem renderAt_begins {v : Json} (hv : v.Printable) (level : Nat)
    : ∃ c more, renderAt level v = c :: more ∧ StartsValue c := by
  rcases scalar_renderAt hv level (show Ends [] from fun c h => nomatch h)
    with ⟨s, rfl⟩ | ⟨items, rfl⟩ | ⟨fields, rfl⟩ | read
  · exact ⟨'"', _, rfl, by decide⟩
  · cases items <;> exact ⟨'[', _, rfl, by decide⟩
  · cases fields <;> exact ⟨'\x7b', _, rfl, by decide⟩
  · obtain ⟨c, more, heq, starts⟩ := startsScalar_of_scalar read
    rw [List.append_nil] at heq
    exact ⟨c, more, heq, .inl starts⟩

/-- The text of a field is its name, a colon, a blank and the text of its value. -/
theorem stringBody_field (name : String) (text tail : List Char)
    : ∃ body, stringText name ++ ':' :: ' ' :: text ++ tail = '"' :: body
      ∧ stringBody ('"' :: body) [] body = .ok (name, ':' :: ' ' :: (text ++ tail)) := by
  obtain ⟨body, hbody, named⟩ := stringBody_stringText
    (stringText name ++ ':' :: ' ' :: (text ++ tail)) name (':' :: ' ' :: (text ++ tail))
  refine ⟨body, ?_, hbody ▸ named⟩
  rw [← hbody, List.append_assoc]
  rfl

theorem skip_value {v : Json} (hv : v.Printable) (level : Nat) (tail : List Char)
    : skip (' ' :: (renderAt level v ++ tail)) = renderAt level v ++ tail := by
  obtain ⟨c, text, hbegin, starts⟩ := renderAt_begins hv level
  rw [hbegin]
  exact skip_cons _ starts.isSpace

mutual

/-- The text of a value reads back with a fuel of twice its length. -/
theorem value_renderAt (v : Json) (hv : v.Printable) (level fuel : Nat) (rest : List Char)
    (ends : Ends rest) (enough : 2 * (renderAt level v).length ≤ fuel)
    : value fuel (renderAt level v ++ rest) = .ok (v, rest) := by
  obtain ⟨c, text, hbegin, -⟩ := renderAt_begins hv level
  obtain ⟨fuel, rfl⟩ : ∃ f, fuel = f + 1 := by
    refine ⟨fuel - 1, ?_⟩
    rw [hbegin, List.length_cons] at enough
    omega
  rcases scalar_renderAt hv level ends with ⟨s, rfl⟩ | ⟨items, rfl⟩ | ⟨fields, rfl⟩ | read
  · obtain ⟨body, hbody, hread⟩ := stringBody_stringText (stringText s ++ rest) s rest
    rw [renderAt, hbody] at *
    simp only [value, hread]
  · match items with
    | [] => rfl
    | first :: more =>
        obtain ⟨c, text, hbegin, starts⟩ := renderAt_begins (v := first) hv.1 (level + 1)
        have length := congrArg List.length
          (block_cons '[' ']' level (renderAt (level + 1) first)
            (itemTexts (level + 1) more) [])
        have head := head?_intercalate (',' :: newline (level + 1)) hbegin
          (itemTexts (level + 1) more) (newline level ++ ']' :: rest)
        have read := elements_itemTexts first more hv (level + 1) level fuel rest
        rw [renderAt, itemTexts] at enough ⊢
        rw [itemTexts] at read
        simp only [List.length_append, List.length_cons, List.length_nil] at length
        rw [block_cons]
        refine value_array ?_ (skip_newline (level + 1) fun x hx => ?_) (read (by omega))
        · rw [head]
          exact fun e => starts.ne (by decide) (Option.some.inj e)
        · rw [head] at hx
          rw [← Option.some.inj hx, starts.isSpace]
  · match fields with
    | [] => rfl
    | (name, first) :: more =>
        obtain ⟨body, hbody, -⟩ := stringBody_stringText [] name
          (':' :: ' ' :: renderAt (level + 1) first)
        have length := congrArg List.length
          (block_cons '\x7b' '\x7d' level
            (stringText name ++ ':' :: ' ' :: renderAt (level + 1) first)
            (fieldTexts (level + 1) more) [])
        have head := head?_intercalate (',' :: newline (level + 1)) hbody
          (fieldTexts (level + 1) more) (newline level ++ '\x7d' :: rest)
        have read := members_fieldTexts name first more hv.2 (level + 1) level fuel rest
        have whole := ofFields_of_nodup hv.1
        rw [renderAt, fieldTexts] at enough ⊢
        rw [fieldTexts] at read
        simp only [List.length_append, List.length_cons, List.length_nil] at length
        rw [block_cons, ← whole]
        refine value_object ?_ (skip_newline (level + 1) fun x hx => ?_) (read ?_)
        · rw [head]
          simp
        · rw [head] at hx
          rw [← Option.some.inj hx]
          decide
        · omega
  · exact value_of_scalar fuel read
termination_by fuel

theorem elements_itemTexts (first : Json) (more : List Json)
    (hv : ItemsPrintable (first :: more)) (level close fuel : Nat) (rest : List Char)
    (enough : 2 * (List.intercalate (',' :: newline level)
        (itemTexts level (first :: more))).length + 1 ≤ fuel)
    : elements fuel (List.intercalate (',' :: newline level) (itemTexts level (first :: more))
        ++ (newline close ++ ']' :: rest))
      = .ok (first :: more, rest) := by
  obtain ⟨fuel, rfl⟩ : ∃ f, fuel = f + 1 := ⟨fuel - 1, by omega⟩
  match more with
  | [] =>
      have single : List.intercalate (',' :: newline level) (itemTexts level [first])
          = renderAt level first := by
        simp [itemTexts, List.intercalate]
      rw [single] at enough ⊢
      exact elements_last
        (value_renderAt first hv.1 level fuel _ (ends_newline close _) (by omega))
        (skip_newline close (by rintro x ⟨rfl⟩; decide))
  | second :: more =>
      obtain ⟨c, text, hbegin, starts⟩ := renderAt_begins (v := second) hv.2.1 level
      have split : List.intercalate (',' :: newline level)
            (itemTexts level (first :: second :: more))
          = renderAt level first ++ (',' :: newline level
            ++ List.intercalate (',' :: newline level) (itemTexts level (second :: more))) := by
        rw [itemTexts, itemTexts, intercalate_cons_cons]
      have length := congrArg List.length split
      simp only [List.length_append, List.length_cons] at length
      rw [split, List.append_assoc, List.append_assoc, List.cons_append]
      refine elements_more
        (value_renderAt first hv.1 level fuel _ (ends_comma _) (by omega))
        (skip_cons _ (by decide)) ?_
      rw [skip_newline]
      · exact elements_itemTexts second more hv.2 level close fuel rest (by omega)
      · intro x hx
        rw [itemTexts, head?_intercalate _ hbegin] at hx
        rw [← Option.some.inj hx, starts.isSpace]
termination_by fuel

theorem members_fieldTexts (name : String) (v : Json) (more : List (String × Json))
    (hv : FieldsPrintable ((name, v) :: more)) (level close fuel : Nat) (rest : List Char)
    (enough : 2 * (List.intercalate (',' :: newline level)
        (fieldTexts level ((name, v) :: more))).length + 1 ≤ fuel)
    : members fuel (List.intercalate (',' :: newline level)
          (fieldTexts level ((name, v) :: more))
        ++ (newline close ++ '\x7d' :: rest))
      = .ok ((name, v) :: more, rest) := by
  obtain ⟨fuel, rfl⟩ : ∃ f, fuel = f + 1 := ⟨fuel - 1, by omega⟩
  match more with
  | [] =>
      have single : List.intercalate (',' :: newline level) (fieldTexts level [(name, v)])
          = stringText name ++ ':' :: ' ' :: renderAt level v := by
        simp [fieldTexts, List.intercalate]
      have length := congrArg List.length single
      simp only [List.length_append, List.length_cons] at length
      obtain ⟨body, hbody, named⟩ := stringBody_field name (renderAt level v)
        (newline close ++ '\x7d' :: rest)
      have read := value_renderAt v hv.1 level fuel _
        (ends_newline close ('\x7d' :: rest)) (by omega)
      rw [← skip_value hv.1] at read
      rw [single, hbody]
      exact members_last named read (skip_newline close (by rintro x ⟨rfl⟩; decide))
  | (name', v') :: more =>
      obtain ⟨body', hbody', -⟩ := stringBody_field name' (renderAt level v') []
      rw [List.append_nil] at hbody'
      have split : List.intercalate (',' :: newline level)
            (fieldTexts level ((name, v) :: (name', v') :: more))
          = stringText name ++ ':' :: ' ' :: renderAt level v ++ (',' :: newline level
            ++ List.intercalate (',' :: newline level)
              (fieldTexts level ((name', v') :: more))) := by
        rw [fieldTexts, fieldTexts, intercalate_cons_cons]
      have length := congrArg List.length split
      simp only [List.length_append, List.length_cons] at length
      rw [split, List.append_assoc (stringText name ++ ':' :: ' ' :: renderAt level v),
        List.append_assoc (',' :: newline level), List.cons_append]
      obtain ⟨body, hbody, named⟩ := stringBody_field name (renderAt level v)
        (',' :: (newline level ++ (List.intercalate (',' :: newline level)
          (fieldTexts level ((name', v') :: more)) ++ (newline close ++ '\x7d' :: rest))))
      have read := value_renderAt v hv.1 level fuel _
        (ends_comma (newline level ++ (List.intercalate (',' :: newline level)
          (fieldTexts level ((name', v') :: more)) ++ (newline close ++ '\x7d' :: rest))))
        (by omega)
      rw [← skip_value hv.1] at read
      rw [hbody]
      refine members_more named read (skip_cons _ (by decide)) ?_
      rw [skip_newline]
      · exact members_fieldTexts name' v' more hv.2 level close fuel rest (by omega)
      · intro x hx
        rw [fieldTexts, head?_intercalate _ hbody'] at hx
        rw [← Option.some.inj hx]
        decide
termination_by fuel

end

theorem document_renderAt {v : Json} (hv : v.Printable)
    : document (renderAt 0 v) = .ok v := by
  obtain ⟨c, text, hbegin, starts⟩ := renderAt_begins hv 0
  have no_mark : (renderAt 0 v).head? ≠ some (Char.ofNat 0xfeff) := by
    rw [hbegin]
    exact fun e => starts.ne (by decide) (Option.some.inj e)
  have blanks : skip (renderAt 0 v) = renderAt 0 v := by
    rw [hbegin]
    exact skip_cons text starts.isSpace
  have read : value (2 * (renderAt 0 v).length + 2) (renderAt 0 v) = .ok (v, []) := by
    have := value_renderAt v hv 0 (2 * (renderAt 0 v).length + 2) [] (fun c h => nomatch h)
      (by omega)
    rwa [List.append_nil] at this
  rw [document, if_neg no_mark, blanks, read]
  rfl

/-- The text of a value reads back as the value. -/
theorem parse_render {v : Json} (hv : v.Printable) : parse v.render = .ok v := by
  simp only [parse, render, String.toList_ofList, document_renderAt hv]

end NameserverAudit.Json
