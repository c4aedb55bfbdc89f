import Mathlib.Data.List.Infix
import Mathlib.Tactic.SplitIfs
import NameserverAudit.Auditor
import NameserverAudit.Proofs.Zone.Lines

/-! A comment in front of a zone. A reader of records passes over it, but it counts when a time to
live is looked for in the text. Main statement: reading a directory, by whatever reader, gives the
same with the comment and without it, unless the comment is the only one to mention the directive
that the text is in need of.
-/

namespace NameserverAudit.Zone

-----------------------------------------------------------------------------------------
-- Texts
-----------------------------------------------------------------------------------------

theorem mentionsTtl_iff {text : List Char}
    : mentionsTtl text = true ↔ "$TTL".toList <:+: text := by
  induction text with
  | nil => simp [mentionsTtl]
  | cons c rest ih =>
      rw [mentionsTtl, Bool.or_eq_true, List.isPrefixOf_iff_prefix, ih, List.infix_cons_iff]

theorem infix_append_cons_iff {α : Type} {p xs ys : List α} {c : α} (h : c ∉ p)
    : p <:+: xs ++ c :: ys ↔ p <:+: xs ∨ p <:+: ys := by
  have starts {q : List α} (hq : q <+: c :: ys) (mem : c ∉ q) : q = [] := by
    cases q with
    | nil => rfl
    | cons d q =>
        obtain ⟨rfl, -⟩ := List.cons_prefix_cons.1 hq
        exact absurd List.mem_cons_self mem
  rw [List.infix_append_iff, List.infix_cons_iff]
  constructor
  · rintro (left | (front | right) | ⟨l, r, rfl, hl, hr⟩)
    · exact .inl left
    · exact .inl (starts front h ▸ List.nil_infix)
    · exact .inr right
    · rw [starts hr fun mem => h (List.mem_append_right l mem), List.append_nil]
      exact .inl hl.isInfix
  · rintro (left | right)
    · exact .inl left
    · exact .inr (.inl (.inr right))

/-- The directive is mentioned in the comment or in the text: a mention holds neither a semicolon
nor the end of a line.
-/
theorem mentionsTtl_comment (comment text : List Char)
    : mentionsTtl (';' :: comment ++ '\n' :: text)
      = (mentionsTtl comment || mentionsTtl text) := by
  have marked : ';' :: comment = [] ++ ';' :: comment := rfl
  rw [Bool.eq_iff_iff, Bool.or_eq_true, mentionsTtl_iff, mentionsTtl_iff, mentionsTtl_iff,
    infix_append_cons_iff (by decide), marked, infix_append_cons_iff (by decide)]
  simp

/-- A comment on a line of its own in front of a text. -/
def commented (comment text : String) : String :=
  ";" ++ comment ++ "\n" ++ text

theorem toList_commented (comment text : String)
    : (commented comment text).toList = ';' :: comment.toList ++ '\n' :: text.toList := by
  simp [commented]

-----------------------------------------------------------------------------------------
-- Readers
-----------------------------------------------------------------------------------------

/-- A reader finds the same records in two texts, or refuses both, or is broken off by both. -/
inductive Alike : Except TextFault (List Record) → Except TextFault (List Record) → Prop
  | read (rs : List Record) : Alike (.ok rs) (.ok rs)
  | fault {f f' : TextFault} (same : f.isRefusal = f'.isRefusal) : Alike (.error f) (.error f')

theorem Alike.symm {r r' : Except TextFault (List Record)} (h : Alike r r') : Alike r' r := by
  cases h with
  | read rs => exact .read rs
  | fault same => exact .fault same.symm

theorem Alike.trans {r r' r'' : Except TextFault (List Record)} (h : Alike r r')
    (h' : Alike r' r'')
    : Alike r r'' := by
  cases h with
  | read rs => exact h'
  | fault same =>
      cases h' with
      | fault same' => exact .fault (same.trans same')

/-- What is later in the text is no other fault. -/
theorem alike_later (k : Nat) (r : Except TextFault (List Record))
    : Alike r (r.mapError (.later k)) := by
  cases r with
  | ok rs => exact .read rs
  | error fault => exact .fault (by cases fault <;> rfl)

/-- Read as it stands, the text comes to a record without a time to live before it gave one. -/
def NeedsTtl (reader : Reader) (text : List Char) : Prop :=
  ∃ number, reader text = .error (.flawed number .noTtl)

/-- What is relied on of a reader: it passes over a comment on a line of its own, at the start of a
text and behind the directive for the time to live, and this directive in front of a text makes a
difference only if the text needs it.
-/
structure Reader.Lawful (reader : Reader) : Prop where
  comment
    : ∀ front ∈ [[], ttlLine], ∀ comment text, '\n' ∉ comment →
        Alike (reader (front ++ text)) (reader (front ++ (';' :: comment ++ '\n' :: text)))
  ttl : ∀ text, NeedsTtl reader text ∨ Alike (reader text) (reader (ttlLine ++ text))

theorem recordsOf_lawful : Reader.Lawful recordsOf where
  comment front member comment text h := by
    simp only [List.mem_cons, List.not_mem_nil, or_false] at member
    rcases member with rfl | rfl
    · rw [List.nil_append, List.nil_append, recordsOf_comment h]
      exact alike_later 1 _
    · rw [recordsOf_directive_comment h]
      exact alike_later 1 _
  ttl text :=
    (recordsOf_directive_eq text).imp_right fun same => by
      rw [same]
      exact alike_later 1 _

-----------------------------------------------------------------------------------------
-- Directories
-----------------------------------------------------------------------------------------

/-- Two readings give the same directory, or both a fault that a run foresees. -/
inductive Reading.Agree (r r' : Reading) : Prop
  | same {d : Directory} (h : r.directory = .ok d) (h' : r'.directory = .ok d) : Agree r r'
  | refused {fault fault' : Fault}
    (h : r.directory = .error fault) (h' : r'.directory = .error fault')
    (foreseen : (RunFault.zone fault).isForeseen = true)
    (foreseen' : (RunFault.zone fault').isForeseen = true)
    : Agree r r'

/-- The fault of the reading, if there is one, is one that a run foresees. -/
def Reading.Foreseen (r : Reading) : Prop :=
  ∀ fault, r.directory = .error fault → (RunFault.zone fault).isForeseen = true

theorem Reading.Agree.foreseen {r r' : Reading} (h : r.Agree r') : r.Foreseen := by
  intro fault hfault
  cases h with
  | same read => cases read.symm.trans hfault
  | refused refused _ foreseen =>
      cases refused.symm.trans hfault
      exact foreseen

/-- A reading that is foreseen agrees with any reading of records that are alike. -/
theorem Reading.agree_iff_of_alike (source : String) {r r' : Except TextFault (List Record)}
    (h : Alike r r')
    : (Reading.ofRecords source r).Agree (Reading.ofRecords source r')
      ↔ (Reading.ofRecords source r).Foreseen := by
  refine ⟨Reading.Agree.foreseen, fun foreseen => ?_⟩
  cases h with
  | read rs =>
      cases hread : (Reading.ofRecords source (.ok rs)).directory with
      | ok d => exact .same hread hread
      | error fault => exact .refused hread hread (foreseen fault hread) (foreseen fault hread)
  | @fault f f' same =>
      have here : f.isRefusal = true := foreseen _ rfl
      have there : f'.isRefusal = true := same ▸ here
      exact .refused rfl rfl here there

namespace Directory

section
variable {reader : Reader} {source comment text : String} (lawful : reader.Lawful)
  (h : '\n' ∉ comment.toList)

include lawful h

/-- The comment is passed over if it does not change where a time to live is put in front. -/
theorem alike_commented
    (mention : mentionsTtl comment.toList = true → mentionsTtl text.toList = true)
    : Alike (reader (withTtl text.toList)) (reader (withTtl (commented comment text).toList)) := by
  unfold withTtl
  rw [toList_commented, mentionsTtl_comment]
  cases inText : mentionsTtl text.toList with
  | true => simpa using lawful.comment [] (by simp) _ text.toList h
  | false =>
      have inComment : mentionsTtl comment.toList = false := by
        cases said : mentionsTtl comment.toList with
        | false => rfl
        | true => cases inText.symm.trans (mention said)
      simpa [inComment] using lawful.comment ttlLine (by simp) _ text.toList h

/-- If only the comment mentions the directive the text is read as it stands. -/
theorem alike_commented_of_mention (text : String) (inComment : mentionsTtl comment.toList = true)
    : Alike (reader text.toList) (reader (withTtl (commented comment text).toList)) := by
  unfold withTtl
  rw [toList_commented, mentionsTtl_comment, inComment, Bool.true_or, if_pos rfl]
  exact lawful.comment [] (by simp) _ text.toList h

/-- The reading of a text by a lawful reader and that of the text with a comment in front agree
exactly if the text has no fault that is not foreseen, and if the comment is not the only one to
mention the directive for the time to live in front of a text that needs it, and can be read then.
-/
theorem commented_agree_iff
    : (ofTextBy reader source text).Agree (ofTextBy reader source (commented comment text))
      ↔ (ofTextBy reader source text).Foreseen
        ∧ ¬(mentionsTtl comment.toList = true ∧ mentionsTtl text.toList = false
          ∧ NeedsTtl reader text.toList
          ∧ ∃ d, (ofTextBy reader source text).directory = .ok d) := by
  by_cases alone : mentionsTtl comment.toList = true ∧ mentionsTtl text.toList = false
  · obtain ⟨inComment, inText⟩ := alone
    have bare := alike_commented_of_mention lawful h text inComment
    have text_eq : withTtl text.toList = ttlLine ++ text.toList := by
      rw [withTtl, inText]
      rfl
    by_cases needs : NeedsTtl reader text.toList
    · obtain ⟨number, missing⟩ := needs
      obtain ⟨f, refused, refusal⟩ :
          ∃ f, reader (withTtl (commented comment text).toList) = .error f
            ∧ f.isRefusal = true := by
        rw [missing] at bare
        generalize reader (withTtl (commented comment text).toList) = r at bare ⊢
        cases bare with
        | fault same => exact ⟨_, rfl, same.symm⟩
      have there : (ofTextBy reader source (commented comment text)).directory
          = .error (.text source f) := by
        rw [ofTextBy, refused]
        rfl
      constructor
      · intro agree
        refine ⟨agree.foreseen, ?_⟩
        rintro ⟨-, -, -, d, read⟩
        cases agree with
        | same h h' => cases h'.symm.trans there
        | refused h => cases read.symm.trans h
      · rintro ⟨foreseen, unread⟩
        cases directory : (ofTextBy reader source text).directory with
        | ok d => exact absurd ⟨inComment, inText, ⟨number, missing⟩, d, directory⟩ unread
        | error fault => exact .refused directory there (foreseen fault directory) refusal
    · have alike := ((lawful.ttl text.toList).resolve_left needs).symm.trans bare
      rw [← text_eq] at alike
      have agree := Reading.agree_iff_of_alike source alike
      exact agree.trans (and_iff_left fun h => needs h.2.2.1).symm
  · have mention (inComment : mentionsTtl comment.toList = true)
        : mentionsTtl text.toList = true := by
      cases inText : mentionsTtl text.toList with
      | true => rfl
      | false => exact absurd ⟨inComment, inText⟩ alone
    have agree := Reading.agree_iff_of_alike source (alike_commented lawful h mention)
    exact agree.trans (and_iff_left fun h => alone ⟨h.1, h.2.1⟩).symm

end

/-- A zone that states a time to live once, for its first record. -/
def timedZone : String :=
  ". 1 NS a.root.\na.root. A 192.0.2.1\n"

/-- A zone that states no time to live. -/
def untimedZone : String :=
  ". NS a.root.\na.root. A 192.0.2.1\n"

/-- The directory of both zones. -/
def singleDirectory : Directory :=
  ⟨[⟨"a.root.", .ofList ["192.0.2.1"], .empty⟩], []⟩

/-- Witness: only the comment mentions the directive, but the zone does not need it. -/
theorem timedZone_commented_agrees
    : Reader.Lawful recordsOf
      ∧ '\n' ∉ " see $TTL below".toList
      ∧ (ofText "hints" timedZone).Agree
        (ofText "hints" (commented " see $TTL below" timedZone)) := by
  have one_line : '\n' ∉ " see $TTL below".toList := by decide
  have read : (ofText "hints" timedZone).directory = .ok singleDirectory := by decide +kernel
  have no_need : ¬NeedsTtl recordsOf timedZone.toList := by
    rintro ⟨number, missing⟩
    have bare : (recordsOf timedZone.toList).toOption.isSome = true := by decide +kernel
    rw [missing] at bare
    cases bare
  refine ⟨recordsOf_lawful, one_line, ?_⟩
  refine (commented_agree_iff recordsOf_lawful one_line).2 ⟨fun fault h => ?_, fun h => ?_⟩
  · cases read.symm.trans h
  · exact no_need h.2.2.1

/-- A comment that mentions the directive takes the time to live away from the zone, which then
cannot be read.
-/
theorem untimedZone_commented_disagrees
    : (ofText "hints" untimedZone).directory = .ok singleDirectory
      ∧ (ofText "hints" (commented "$TTL" untimedZone)).directory
        = .error (.text "hints" (.flawed 2 .noTtl))
      ∧ ¬(ofText "hints" untimedZone).Agree (ofText "hints" (commented "$TTL" untimedZone)) := by
  have read : (ofText "hints" untimedZone).directory = .ok singleDirectory := by decide +kernel
  have refused : (ofText "hints" (commented "$TTL" untimedZone)).directory
      = .error (.text "hints" (.flawed 2 .noTtl)) := by
    decide +kernel
  refine ⟨read, refused, ?_⟩
  rintro (⟨-, read'⟩ | ⟨refused', -, -, -⟩)
  · cases read'.symm.trans refused
  · cases refused'.symm.trans read

end Directory

end NameserverAudit.Zone
