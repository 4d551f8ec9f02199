import Marginalia.Annotation.Distance
import Marginalia.Settings.Basic
import Marginalia.Value.Literal

/-
The words of a command line.  Options may be written in full, or by a beginning
that fits only one of them; a value follows an option or is joined to it by an
equals sign; the directories stand anywhere between.
-/
namespace Marginalia

structure Options where
  inputDirectory : Text := []
  outputDirectory : Text := []
  inputFile : Text := []
  template : Text
  templateDirectory : Option Text := none
  commentStyle : Text
  maxGap : Int
  outputFile : Option Text := none
  printsTemplate : Bool := false
  verbosity : Nat := 1
deriving DecidableEq, Repr

namespace Options

/-- What holds where the command line says nothing. -/
def ofSettings (s : Settings) : Options where
  template := s.defaultTemplate
  commentStyle := s.commentStyle
  maxGap := s.maxHighlightGap

end Options

inductive Flag where
  | help
  | inputFile
  | template
  | templateDirectory
  | commentStyle
  | maxGap
  | outputFile
  | printTemplate
  | verbosity
  | version
deriving DecidableEq, Repr

namespace Flag

/-- The ways to write an option, the short one first. -/
def names : Flag → List Text
  | .help => ["-h".toList, "--help".toList]
  | .inputFile => ["--inputFile".toList]
  | .template => ["--template".toList]
  | .templateDirectory => ["--templateDir".toList]
  | .commentStyle => ["--commentStyle".toList]
  | .maxGap => ["--maxGap".toList]
  | .outputFile => ["--outputFile".toList]
  | .printTemplate => ["--printTemplate".toList]
  | .verbosity => ["-v".toList, "--verbosity".toList]
  | .version => ["-V".toList, "--version".toList]

def all : List Flag :=
  [.help, .inputFile, .template, .templateDirectory, .commentStyle, .maxGap, .outputFile,
    .printTemplate, .verbosity, .version]

def written : List (Text × Flag) := all.flatMap fun f => f.names.map fun n => (n, f)

def ofName? (name : Text) : Option Flag := written.lookup name

def takesValue : Flag → Bool
  | .help | .printTemplate | .verbosity | .version => false
  | _ => true

end Flag

inductive ValueProblem where
  | missing
  /-- The option takes no value. -/
  | ignored (value : Text)
  | notWhole (value : Text)
  | noChoice (value : Text)
deriving DecidableEq, Repr

/-- Why a command line is not understood. -/
inductive UsageProblem where
  | ambiguous (word : Text) (candidates : List Text)
  | value (flag : Flag) (problem : ValueProblem)
  /-- Directories that are not given. -/
  | missing (names : List Text)
  /-- Words that belong to nothing. -/
  | unrecognized (words : List Text)
deriving DecidableEq, Repr

def ValueProblem.message : ValueProblem → Text
  | .missing => "expected one argument".toList
  | .ignored v => "ignored explicit argument ".toList ++ Text.quoted v
  | .notWhole v => "invalid int value: ".toList ++ Text.quoted v
  | .noChoice v =>
    "invalid choice: ".toList ++ Text.quoted v ++ " (choose from ".toList ++
      Text.join [',', ' '] (CommentStyle.all.map fun s => Text.quoted s.name) ++ [')']

def UsageProblem.message : UsageProblem → Text
  | .ambiguous word candidates =>
    "ambiguous option: ".toList ++ word ++ " could match ".toList ++
      Text.join [',', ' '] candidates
  | .value flag problem =>
    "argument ".toList ++ Text.join ['/'] flag.names ++ [':', ' '] ++ problem.message
  | .missing names =>
    "the following arguments are required: ".toList ++ Text.join [',', ' '] names
  | .unrecognized words => "unrecognized arguments: ".toList ++ Text.join [' '] words

inductive Refusal where
  | help
  | version
  | usage (problem : UsageProblem)
deriving DecidableEq, Repr

namespace Arguments

/-! ## Words -/

/-- What stands in one word with an option. -/
inductive Joined where
  | nothing
  | value (v : Text)
  | letters (t : Text)
deriving DecidableEq, Repr

inductive Role where
  | operand
  /-- The mark after which all words are operands. -/
  | divider
  | flag (f : Flag) (joined : Joined)
  /-- What looks like an option and is none. -/
  | stranger
deriving DecidableEq, Repr

structure Word where
  source : Text
  role : Role
deriving DecidableEq, Repr

/-- A negative number is no option. -/
def isNegativeNumber : Text → Bool
  | '-' :: body =>
    let whole := body.takeWhile Text.isDigit
    match body.drop whole.length with
    | [] => !whole.isEmpty
    | '.' :: ds => !ds.isEmpty && ds.all Text.isDigit
    | _ => false
  | _ => false

/-- A word before its first equals sign, and what is joined to it there. -/
def cutValue (word : Text) : Text × Joined :=
  match Text.cut ['='] word with
  | some (name, value) => (name, .value value)
  | none => (word, .nothing)

/-- The options that a word may mean: by a beginning of a long name, or by a
short name with more letters behind it. -/
def candidates (word : Text) : List (Text × Flag × Joined) :=
  match word with
  | '-' :: '-' :: _ =>
    let (start, joined) := cutValue word
    Flag.written.filterMap fun (name, f) =>
      if start.isPrefixOf name then some (name, f, joined) else none
  | _ =>
    Flag.written.filterMap fun (name, f) =>
      if name = word.take 2 then some (name, f, .letters (word.drop 2))
      else if word.isPrefixOf name then some (name, f, .nothing)
      else none

def roleByBeginning (word : Text) : Except Refusal Role :=
  match candidates word with
  | [(_, f, joined)] => .ok (.flag f joined)
  | [] =>
    .ok (if isNegativeNumber word || word.contains ' ' then .operand else .stranger)
  | several => .error (.usage (.ambiguous word (several.map (·.1))))

def roleOf (word : Text) : Except Refusal Role :=
  if word.head? ≠ some '-' then .ok .operand
  else
    match Flag.ofName? word with
    | some f => .ok (.flag f .nothing)
    | none =>
      if word.length = 1 then .ok .operand
      else
        let (name, joined) := cutValue word
        match Flag.ofName? name with
        | some f => .ok (.flag f joined)
        | none => roleByBeginning word

def classify : List Text → Except Refusal (List Word)
  | [] => .ok []
  | word :: rest =>
    if word = ['-', '-'] then
      .ok (⟨word, .divider⟩ :: rest.map fun w => ⟨w, .operand⟩)
    else do
      let role ← roleOf word
      let words ← classify rest
      return ⟨word, role⟩ :: words

/-! ## Options -/

structure Progress where
  options : Options
  /-- How many directories have been given. -/
  given : Nat := 0
  /-- Words that belong to nothing. -/
  extras : List Text := []

def readGap (f : Flag) (v : Text) : Except Refusal Int :=
  match Value.readWhole v with
  | .ok n => .ok n
  | .error _ => .error (.usage (.value f (.notWhole v)))

/-- Carry out an option that takes no value. -/
def applySwitch (o : Options) : Flag → Except Refusal Options
  | .help => .error .help
  | .version => .error .version
  | .printTemplate => .ok { o with printsTemplate := true }
  | .verbosity => .ok { o with verbosity := o.verbosity + 1 }
  | _ => .ok o

/-- Carry out an option with its value. -/
def applyValue (o : Options) (f : Flag) (v : Text) : Except Refusal Options :=
  match f with
  | .inputFile => .ok { o with inputFile := v }
  | .template => .ok { o with template := v }
  | .templateDirectory => .ok { o with templateDirectory := some v }
  | .outputFile => .ok { o with outputFile := some v }
  | .commentStyle =>
    if (CommentStyle.ofName? v).isSome then .ok { o with commentStyle := v }
    else .error (.usage (.value f (.noChoice v)))
  | .maxGap => do return { o with maxGap := ← readGap f v }
  | _ => .ok o

def applySwitches (o : Options) : List Flag → Except Refusal Options
  | [] => .ok o
  | f :: rest => do applySwitches (← applySwitch o f) rest

/-- The options in one word. -/
structure Cluster where
  switches : List Flag := []
  /-- An option that takes a value, and the value when it is in the word. -/
  last : Option (Flag × Option Text) := none
  /-- Letters that are no options. -/
  stray : Option Text := none

namespace Cluster

/-- One option with its value, or for want of it. -/
def single (f : Flag) : Option Text → Except Refusal Cluster
  | none => .ok (if f.takesValue then { last := some (f, none) } else { switches := [f] })
  | some v =>
    if f.takesValue then .ok { last := some (f, some v) }
    else .error (.usage (.value f (.ignored v)))

/-- The letters behind a short option that takes no value are short options
themselves. -/
def ofLetters (f : Flag) : Text → Except Refusal Cluster
  | [] => single f none
  | '=' :: v => single f (some v)
  | c :: rest =>
    if f.takesValue || c = '-' then single f (some (c :: rest))
    else
      match Flag.ofName? ['-', c] with
      | none => .ok { switches := [f], stray := some ('-' :: c :: rest) }
      | some g => do
        let cluster ← ofLetters g rest
        return { cluster with switches := f :: cluster.switches }

def ofJoined (f : Flag) : Joined → Except Refusal Cluster
  | .nothing => single f none
  | .value v => single f (some v)
  | .letters t => ofLetters f t

end Cluster

/-- Carry out the options in a word; the value of the last one may be the next
word.  What is left of the words comes back with what was changed. -/
def takeFlag (p : Progress) (f : Flag) (joined : Joined) (rest : List Word) :
    Except Refusal (Progress × List Word) := do
  let cluster ← Cluster.ofJoined f joined
  let p := { p with extras := p.extras ++ cluster.stray.toList }
  match cluster.last, rest with
  | none, _ => return ({ p with options := ← applySwitches p.options cluster.switches }, rest)
  | some (g, some v), _ =>
    let o ← applySwitches p.options cluster.switches
    return ({ p with options := ← applyValue o g v }, rest)
  | some (g, none), ⟨v, .operand⟩ :: rest =>
    let o ← applySwitches p.options cluster.switches
    return ({ p with options := ← applyValue o g v }, rest)
  | some (g, none), _ => throw (.usage (.value g .missing))

/-! ## Directories -/

def setDirectory (o : Options) (n : Nat) (t : Text) : Options :=
  if n = 0 then { o with inputDirectory := t } else { o with outputDirectory := t }

def directoryNames : List Text := ["inputdir".toList, "outputdir".toList]

def dropDividers : List Word → List Word := List.dropWhile (·.role = .divider)

def takeDirectory? (p : Progress) (words : List Word) : Option (Progress × List Word) :=
  if directoryNames.length ≤ p.given then none
  else
    match dropDividers words with
    | ⟨t, .operand⟩ :: rest =>
      some ({ p with options := setDirectory p.options p.given t, given := p.given + 1 },
        dropDividers rest)
    | _ => none

def takeDirectories (p : Progress) (words : List Word) : Progress × List Word :=
  match takeDirectory? p words with
  | none => (p, words)
  | some (p, words) =>
    match takeDirectory? p words with
    | none => (p, words)
    | some (p, words) => (p, words)

def isFlag (w : Word) : Bool :=
  match w.role with
  | .flag _ _ | .stranger => true
  | _ => false

/-- Go through the words: directories where they stand, options one by one, and
whatever is neither. -/
def scan : Nat → Progress → List Word → Except Refusal Progress
  | 0, p, _ => .ok p
  | fuel + 1, p, words =>
    if !words.any isFlag then
      let (p, rest) := takeDirectories p words
      .ok { p with extras := p.extras ++ rest.map (·.source) }
    else
      match words with
      | ⟨_, .flag f joined⟩ :: rest => do
        let (p, rest) ← takeFlag p f joined rest
        scan fuel p rest
      | ⟨source, .stranger⟩ :: rest => scan fuel { p with extras := p.extras ++ [source] } rest
      | words =>
        let (q, rest) := takeDirectories p words
        if rest.length < words.length then scan fuel q rest
        else
          let strays := words.takeWhile fun w => !isFlag w
          scan fuel { p with extras := p.extras ++ strays.map (·.source) }
            (words.drop strays.length)

/-- Read a command line; what it does not say is as in `defaults`. -/
def read (defaults : Options) (args : List Text) : Except Refusal Options := do
  let words ← classify args
  let p ← scan (2 * words.length + 1) { options := defaults } words
  if p.given < directoryNames.length then
    throw (.usage (.missing (directoryNames.drop p.given)))
  if !p.extras.isEmpty then throw (.usage (.unrecognized p.extras))
  return p.options

end Arguments
end Marginalia
