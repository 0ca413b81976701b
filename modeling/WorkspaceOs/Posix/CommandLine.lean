import Mathlib.Tactic.Common

/-!
# Command lines

A command line gives flags, then an operand, and then arguments that belong to the operand. A flag
stands alone, or takes the argument after it as its value. Arguments are of any type: which of them
are flags, and which flags take a value, is what the usage of a program says.
-/

namespace Posix

variable {α : Type*}

inductive Flag (α : Type*) where
  | alone (name : α)
  | valued (name value : α)
deriving DecidableEq

/-- A flag as it is given on the command line. -/
def Flag.arguments : Flag α → List α
  | .alone name => [name]
  | .valued name value => [name, value]

@[simp] lemma Flag.arguments_alone (name : α) : (alone name).arguments = [name] := rfl

@[simp] lemma Flag.arguments_valued (name value : α) :
    (valued name value).arguments = [name, value] := rfl

structure CommandLine (α : Type*) where
  flags : List (Flag α)
  operand : α
  rest : List α
deriving DecidableEq

namespace CommandLine

/-- A command line as it is given. -/
def arguments (line : CommandLine α) : List α :=
  line.flags.flatMap Flag.arguments ++ line.operand :: line.rest

/-- One more flag in front. -/
def cons (flag : Flag α) (line : CommandLine α) : CommandLine α :=
  { line with flags := flag :: line.flags }

@[simp] lemma arguments_cons (flag : Flag α) (line : CommandLine α) :
    (line.cons flag).arguments = flag.arguments ++ line.arguments := by
  simp [arguments, cons]

end CommandLine

/-- Which arguments are flags where a flag may stand, and which flags take a value. -/
structure Usage (α : Type*) where
  isFlag : α → Bool
  takesValue : α → Bool

namespace Usage

variable {usage : Usage α} {line : CommandLine α} {arguments : List α}

/-- Reads the arguments from left to right. There is no operand, or no value, at their end. -/
def parse (usage : Usage α) : List α → Option (CommandLine α)
  | [] => none
  | argument :: arguments =>
    if usage.isFlag argument then
      if usage.takesValue argument then
        match arguments with
        | [] => none
        | value :: arguments => (usage.parse arguments).map (.cons (.valued argument value))
      else (usage.parse arguments).map (.cons (.alone argument))
    else some ⟨[], argument, arguments⟩

/-- The flag is one, and has a value when it takes one. -/
def Knows (usage : Usage α) : Flag α → Prop
  | .alone name => usage.isFlag name = true ∧ usage.takesValue name = false
  | .valued name _ => usage.isFlag name = true ∧ usage.takesValue name = true

/-- Where a flag may stand there are flags, and the operand is none. -/
structure Reads (usage : Usage α) (line : CommandLine α) : Prop where
  flags : ∀ flag ∈ line.flags, usage.Knows flag
  operand : usage.isFlag line.operand = false

lemma Reads.cons {flag : Flag α} (hflag : usage.Knows flag) (h : usage.Reads line) :
    usage.Reads (line.cons flag) :=
  ⟨List.forall_mem_cons.mpr ⟨hflag, h.flags⟩, h.operand⟩

lemma parse_operand {operand : α} (h : usage.isFlag operand = false) :
    usage.parse (operand :: arguments) = some ⟨[], operand, arguments⟩ := by
  cases arguments <;> simp [parse, h]

/-- A flag is read from its own arguments. -/
lemma parse_flag {flag : Flag α} (h : usage.Knows flag) :
    usage.parse (flag.arguments ++ arguments) = (usage.parse arguments).map (.cons flag) := by
  cases flag with
  | alone name =>
    obtain ⟨hflag, hvalue⟩ := h
    cases arguments <;> simp [parse, hflag, hvalue]
  | valued name value =>
    obtain ⟨hflag, hvalue⟩ := h
    simp [parse, hflag, hvalue]

/-- What can be read is read back from its arguments. -/
lemma parse_arguments (h : usage.Reads line) : usage.parse line.arguments = some line := by
  obtain ⟨flags, operand, rest⟩ := line
  induction flags with
  | nil => exact parse_operand h.operand
  | cons flag flags ih =>
    obtain ⟨hflag, hflags⟩ := List.forall_mem_cons.mp h.flags
    have hcons := CommandLine.arguments_cons flag ⟨flags, operand, rest⟩
    change usage.parse (CommandLine.cons flag ⟨flags, operand, rest⟩).arguments = _
    rw [hcons, parse_flag hflag, ih ⟨hflags, h.operand⟩]
    rfl

/-- What is read can be read, and stands in the arguments. -/
lemma parse_some (h : usage.parse arguments = some line) :
    usage.Reads line ∧ line.arguments = arguments := by
  induction arguments using parse.induct usage generalizing line with
  | case1 => cases h
  | case2 argument hflag hvalue =>
    simp [parse, hflag, hvalue] at h
  | case3 argument hflag hvalue value arguments ih =>
    simp only [parse, if_pos hflag, if_pos hvalue] at h
    obtain ⟨tail, htail, rfl⟩ := Option.map_eq_some_iff.mp h
    obtain ⟨hreads, harguments⟩ := ih htail
    refine ⟨hreads.cons ⟨hflag, hvalue⟩, ?_⟩
    simp [harguments]
  | case4 argument arguments hflag hvalue ih =>
    have hknows : usage.Knows (.alone argument) := ⟨hflag, by simpa using hvalue⟩
    have hparse := @parse_flag _ usage arguments _ hknows
    rw [Flag.arguments_alone, List.singleton_append, h] at hparse
    obtain ⟨tail, htail, rfl⟩ := Option.map_eq_some_iff.mp hparse.symm
    obtain ⟨hreads, harguments⟩ := ih htail
    refine ⟨hreads.cons hknows, ?_⟩
    simp [harguments]
  | case5 argument arguments hflag =>
    rw [parse_operand (by simpa using hflag)] at h
    cases h
    exact ⟨⟨by simp, by simpa using hflag⟩, rfl⟩

/-- Reading undoes writing exactly where flags and operand are told apart. -/
lemma parse_eq_some_iff :
    usage.parse arguments = some line ↔ usage.Reads line ∧ line.arguments = arguments := by
  refine ⟨parse_some, ?_⟩
  rintro ⟨hreads, rfl⟩
  exact parse_arguments hreads

end Usage

/-! ### Assignments -/

section Assignment

variable [DecidableEq α] {separator : α} {name value : List α}

/-- What is before the first separator and, where there is one, what is after it. -/
def splitFirst (separator : α) : List α → List α × Option (List α)
  | [] => ([], none)
  | a :: word =>
    if a = separator then ([], some word)
    else (a :: (splitFirst separator word).1, (splitFirst separator word).2)

/-- What is before the first separator has none. -/
lemma not_mem_splitFirst (word : List α) : separator ∉ (splitFirst separator word).1 := by
  induction word with
  | nil => simp [splitFirst]
  | cons a word ih =>
    rw [splitFirst]
    split_ifs with ha
    · simp
    · simpa using ⟨Ne.symm ha, ih⟩

/-- An assignment is read back when its name has no separator. -/
lemma splitFirst_assignment :
    splitFirst separator (name ++ separator :: value) = (name, some value) ↔ separator ∉ name := by
  constructor
  · intro h
    have hname := @not_mem_splitFirst _ _ separator (name ++ separator :: value)
    rwa [h] at hname
  · intro h
    induction name with
    | nil => exact if_pos rfl
    | cons a name ih =>
      obtain ⟨ha, hname⟩ := not_or.mp (List.mem_cons.not.mp h)
      rw [List.cons_append, splitFirst, if_neg (Ne.symm ha), ih hname]

end Assignment

end Posix
