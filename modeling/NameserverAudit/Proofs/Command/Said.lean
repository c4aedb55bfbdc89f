import NameserverAudit.Command.Arguments

/-! What a command line says: which switches are on, and which texts its flags are given. Of
several texts for one flag the last one counts. Main statement: what an accepted command line
asks for is what it says.
-/

namespace NameserverAudit.Command

/-- A step after another one succeeds only if both do. -/
theorem exists_ok_of_bind {ε α β : Type} {first : Except ε α} {next : α → Except ε β} {y : β}
    (h : (first >>= next) = .ok y)
    : ∃ x, first = .ok x ∧ next x = .ok y := by
  cases first with
  | error fault => cases h
  | ok x => exact ⟨x, rfl, h⟩

-----------------------------------------------------------------------------------------
-- Marks
-----------------------------------------------------------------------------------------

/-- One thing that a command line says. -/
inductive Mark where
  | on (f : Flag)
  | value (f : Flag) (text : String)
deriving DecidableEq, Repr

/-- The text that a mark gives a flag. -/
def Mark.text? (f : Flag) : Mark → Option String
  | .on _ => none
  | .value g text => if g = f then some text else none

/-- The text that counts for a flag: the last one that it is given. -/
def lastText? (f : Flag) (marks : List Mark) : Option String :=
  marks.reverse.findSome? (Mark.text? f)

theorem lastText?_append (f : Flag) (earlier later : List Mark)
    : lastText? f (earlier ++ later) = (lastText? f later).or (lastText? f earlier) := by
  simp [lastText?, List.findSome?_append]

/-- `Says words marks`: every word is a flag or the value of the flag in front of it, and
`marks` is what they say from left to right. A value may be in the same word as its flag or in
the next.
-/
inductive Says : List Word → List Mark → Prop
  | nothing : Says [] []
  | switches {f : Flag} {a : Attachment} {switches : List Flag} {rest : List Word}
      {marks : List Mark} (shape : Cluster.ofWord f a = .ok ⟨switches, .switch⟩)
      (more : Says rest marks)
      : Says (.flag f a :: rest) (switches.map .on ++ marks)
  | joined {f g : Flag} {a : Attachment} {switches : List Flag} {text : String}
      {rest : List Word} {marks : List Mark}
      (shape : Cluster.ofWord f a = .ok ⟨switches, .given g text⟩) (more : Says rest marks)
      : Says (.flag f a :: rest) (switches.map .on ++ .value g text :: marks)
  | apart {f g : Flag} {a : Attachment} {switches : List Flag} {text : String}
      {rest : List Word} {marks : List Mark}
      (shape : Cluster.ofWord f a = .ok ⟨switches, .awaiting g⟩) (more : Says rest marks)
      : Says (.flag f a :: .value text :: rest) (switches.map .on ++ .value g text :: marks)

/-- Words say one thing only, by induction on what they say: the form of the first word
decides between the cases.
-/
theorem Says.unique {words : List Word} {marks others : List Mark} (h : Says words marks)
    (h' : Says words others)
    : marks = others := by
  induction h generalizing others with
  | nothing => cases h'; rfl
  | switches shape _ ih =>
    cases h' with
    | switches shape' more =>
      cases shape.symm.trans shape'
      rw [ih more]
    | joined shape' _ | apart shape' _ => cases shape.symm.trans shape'
  | joined shape _ ih =>
    cases h' with
    | joined shape' more =>
      cases shape.symm.trans shape'
      rw [ih more]
    | switches shape' _ | apart shape' _ => cases shape.symm.trans shape'
  | apart shape _ ih =>
    cases h' with
    | apart shape' more =>
      cases shape.symm.trans shape'
      rw [ih more]
    | switches shape' _ | joined shape' _ => cases shape.symm.trans shape'

/-- `LineSays arguments marks`: the arguments of a command line, as words, say `marks`. -/
def LineSays (arguments : List String) (marks : List Mark) : Prop :=
  ∃ words, Word.ofArguments arguments = .ok words ∧ Says words marks

theorem LineSays.unique {arguments : List String} {marks others : List Mark}
    (h : LineSays arguments marks) (h' : LineSays arguments others)
    : marks = others := by
  obtain ⟨words, read, spoken⟩ := h
  obtain ⟨words', read', spoken'⟩ := h'
  have same : words = words' := Except.ok.inj (read.symm.trans read')
  subst same
  exact spoken.unique spoken'

-----------------------------------------------------------------------------------------
-- Fields with a value
-----------------------------------------------------------------------------------------

/-- What a field becomes that was `old`: the same if its flag is given no text, and otherwise
what that text reads as.
-/
inductive Renewed {α : Type} (read : String → Option α) (old : Option α)
    : Option String → Option α → Prop
  | kept : Renewed read old none old
  | given {text : String} {x : α} (reads : read text = some x)
      : Renewed read old (some text) (some x)

/-- The later of two texts counts, by whether there is one. -/
theorem Renewed.trans {α : Type} {read : String → Option α} {old middle new : Option α}
    {earlier later : Option String} (h : Renewed read old earlier middle)
    (h' : Renewed read middle later new)
    : Renewed read old (later.or earlier) new := by
  cases h' with
  | kept => exact h
  | given reads => exact .given reads

-----------------------------------------------------------------------------------------
-- Arguments that heed marks
-----------------------------------------------------------------------------------------

namespace Arguments

/-- What is asked for after one more mark. -/
def heed (a : Arguments) : Mark → Except NotRun Arguments
  | .on .help => .error .help
  | .on f => .ok (a.switchOn f)
  | .value f text => (a.give f text).mapError .fault

def heedAll (a : Arguments) (marks : List Mark) : Except NotRun Arguments :=
  marks.foldlM heed a

theorem heedAll_append (a : Arguments) (earlier later : List Mark)
    : a.heedAll (earlier ++ later) = a.heedAll earlier >>= (·.heedAll later) :=
  List.foldlM_append

/-- Switches are turned on one after the other, by induction on them. -/
theorem switchOnAll_eq (a : Arguments) (switches : List Flag)
    : a.switchOnAll switches = a.heedAll (switches.map .on) := by
  induction switches generalizing a with
  | nil => rfl
  | cons f rest ih => cases f <;> first | exact ih _ | rfl

theorem take_eq (a : Arguments) (switches : List Flag) (f : Flag) (text : String)
    : a.take switches f text = a.heedAll (switches.map .on ++ [.value f text]) := by
  rw [heedAll_append, ← switchOnAll_eq]
  unfold take
  cases a.switchOnAll switches with
  | error r => rfl
  | ok b =>
    change _ = b.heed (.value f text) >>= pure
    rw [bind_pure]
    simp only [heed]
    cases b.give f text <;> rfl

theorem heedAll_of_take {a b : Arguments} {switches : List Flag} {f : Flag} {text : String}
    {marks : List Mark} (h : a.take switches f text = .ok b)
    : a.heedAll (switches.map .on ++ .value f text :: marks) = b.heedAll marks := by
  rw [List.append_cons, heedAll_append, ← take_eq, h]
  rfl

/-- Arguments that pass the check are the same after it, and nothing is left over. -/
theorem eq_of_check {a b : Arguments} {left : List String} (h : a.check left = .ok b)
    : b = a ∧ left = [] := by
  unfold check at h
  split at h
  · cases h
  · split at h
    · cases h
    · next nothingLeft =>
      split at h <;> cases h
      exact ⟨rfl, by simpa using nothingLeft⟩

theorem leave_ne_ok {text : String} {r : Except NotRun (Arguments × List String)}
    {b : Arguments} (h : leave text r = .ok (b, []))
    : False := by
  cases r <;> cases h

/-- Words of which none is left over say something, and it is heeded: by induction along the
words as they are taken.
-/
theorem exists_says {a b : Arguments} {words : List Word}
    (h : a.takeWords words = .ok (b, []))
    : ∃ marks, Says words marks ∧ a.heedAll marks = .ok b := by
  fun_induction takeWords a words with
  | case1 a =>
    cases h
    exact ⟨[], .nothing, rfl⟩
  | case4 a f attached switches rest shape next turned ih =>
    obtain ⟨marks, spoken, heeded⟩ := ih h
    refine ⟨_, .switches shape spoken, ?_⟩
    rw [heedAll_append, ← switchOnAll_eq, turned]
    exact heeded
  | case8 a f attached switches g text rest shape next taken ih =>
    obtain ⟨marks, spoken, heeded⟩ := ih h
    exact ⟨_, .joined shape spoken, (heedAll_of_take taken).trans heeded⟩
  | case10 a f attached switches g text rest shape next taken ih =>
    obtain ⟨marks, spoken, heeded⟩ := ih h
    exact ⟨_, .apart shape spoken, (heedAll_of_take taken).trans heeded⟩
  | case6 | case12 | case13 => exact (leave_ne_ok h).elim
  | case2 | case3 | case5 | case7 | case9 | case11 => cases h

-----------------------------------------------------------------------------------------
-- What is asked for
-----------------------------------------------------------------------------------------

/-- What marks make of the fields that settings depend on. -/
structure Reflects (marks : List Mark) (a b : Arguments) : Prop where
  rootZone : Renewed some a.rootZone (lastText? .rootZone marks) b.rootZone
  ledgerIn : Renewed some a.ledgerIn (lastText? .ledgerIn marks) b.ledgerIn
  ledgerOut : Renewed some a.ledgerOut (lastText? .ledgerOut marks) b.ledgerOut
  workers : Renewed Reading.int? a.workers (lastText? .workers marks) b.workers
  timeout : Renewed Reading.double? a.timeout (lastText? .timeout marks) b.timeout
  attempts : Renewed Reading.int? a.attempts (lastText? .attempts marks) b.attempts
  noIpv6 : b.noIpv6 = (a.noIpv6 || decide (.on .noIpv6 ∈ marks))

theorem Reflects.refl (a : Arguments) : Reflects [] a a :=
  ⟨.kept, .kept, .kept, .kept, .kept, .kept, by simp⟩

theorem Reflects.trans {earlier later : List Mark} {a b c : Arguments}
    (h : Reflects earlier a b) (h' : Reflects later b c)
    : Reflects (earlier ++ later) a c where
  rootZone := lastText?_append .rootZone _ _ ▸ h.rootZone.trans h'.rootZone
  ledgerIn := lastText?_append .ledgerIn _ _ ▸ h.ledgerIn.trans h'.ledgerIn
  ledgerOut := lastText?_append .ledgerOut _ _ ▸ h.ledgerOut.trans h'.ledgerOut
  workers := lastText?_append .workers _ _ ▸ h.workers.trans h'.workers
  timeout := lastText?_append .timeout _ _ ▸ h.timeout.trans h'.timeout
  attempts := lastText?_append .attempts _ _ ▸ h.attempts.trans h'.attempts
  noIpv6 := by simp [h'.noIpv6, h.noIpv6, Bool.or_assoc]

/-- A switch changes no field with a value. -/
theorem reflects_on (a : Arguments) (f : Flag) : Reflects [.on f] a (a.switchOn f) := by
  cases f <;> exact ⟨.kept, .kept, .kept, .kept, .kept, .kept, by simp [switchOn]⟩

/-- A text changes the field of its flag only, by cases on the flag. -/
theorem reflects_value {a b : Arguments} {f : Flag} {text : String}
    (h : a.give f text = .ok b)
    : Reflects [.value f text] a b := by
  cases f <;> simp only [give] at h
  case rootZone =>
    cases h
    exact ⟨.given rfl, .kept, .kept, .kept, .kept, .kept, by simp⟩
  case ledgerIn =>
    cases h
    exact ⟨.kept, .given rfl, .kept, .kept, .kept, .kept, by simp⟩
  case ledgerOut =>
    cases h
    exact ⟨.kept, .kept, .given rfl, .kept, .kept, .kept, by simp⟩
  case workers =>
    split at h <;> cases h
    next reads => exact ⟨.kept, .kept, .kept, .given reads, .kept, .kept, by simp⟩
  case timeout =>
    split at h <;> cases h
    next reads => exact ⟨.kept, .kept, .kept, .kept, .given reads, .kept, by simp⟩
  case attempts =>
    split at h <;> cases h
    next reads => exact ⟨.kept, .kept, .kept, .kept, .kept, .given reads, by simp⟩
  case watch =>
    split at h <;> cases h
    exact ⟨.kept, .kept, .kept, .kept, .kept, .kept, by simp⟩
  all_goals
    cases h
    exact ⟨.kept, .kept, .kept, .kept, .kept, .kept, by simp⟩

theorem reflects_heed {a b : Arguments} {m : Mark} (h : a.heed m = .ok b)
    : Reflects [m] a b := by
  cases m with
  | on f =>
    cases f with
    | help => cases h
    | _ =>
      cases h
      exact reflects_on a _
  | value f text =>
    simp only [heed] at h
    cases given : a.give f text with
    | error fault =>
      rw [given] at h
      cases h
    | ok c =>
      rw [given] at h
      cases h
      exact reflects_value given

/-- What marks say is asked for, by induction on them. -/
theorem reflects_heedAll {a b : Arguments} {marks : List Mark} (h : a.heedAll marks = .ok b)
    : Reflects marks a b := by
  induction marks generalizing a with
  | nil =>
    cases h
    exact .refl _
  | cons m rest ih =>
    rw [heedAll, List.foldlM_cons] at h
    obtain ⟨c, first, more⟩ := exists_ok_of_bind h
    exact (reflects_heed first).trans (ih more)

/-- A command line is accepted if all its words are taken and what they ask for passes the
check.
-/
theorem ofList_eq_ok {arguments : List String} {a : Arguments} (h : ofList arguments = .ok a)
    : ∃ words, Word.ofArguments arguments = .ok words
        ∧ none.takeWords words = .ok (a, []) ∧ a.check [] = .ok a := by
  unfold ofList at h
  split at h
  · cases h
  · next words read =>
    split at h
    · cases h
    · next b left taken =>
      split at h
      · cases h
      · next c checked =>
        cases h
        obtain ⟨rfl, rfl⟩ := eq_of_check checked
        exact ⟨words, read, taken, checked⟩

theorem rootZone_ne_none {arguments : List String} {a : Arguments}
    (h : ofList arguments = .ok a)
    : a.rootZone ≠ .none := by
  obtain ⟨_, -, -, checked⟩ := ofList_eq_ok h
  exact rootZone_ne_none_of_check checked

/-- What an accepted command line asks for is what it says. -/
theorem exists_lineSays {arguments : List String} {a : Arguments} (h : ofList arguments = .ok a)
    : ∃ marks, LineSays arguments marks ∧ Reflects marks none a := by
  obtain ⟨words, read, taken, -⟩ := ofList_eq_ok h
  obtain ⟨marks, spoken, heeded⟩ := exists_says taken
  exact ⟨marks, ⟨words, read, spoken⟩, reflects_heedAll heeded⟩

end Arguments

end NameserverAudit.Command
