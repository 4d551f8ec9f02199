import Marginalia.Template.Parsed
import Marginalia.Template.Quoting
import Marginalia.Filter.Basic
import Marginalia.Cache

/-
Compiled templates and what they render.  A record only decides which tokens
are emitted; the emitted ones are then turned into text from left to right,
with or without a memory of the pipelines they use.
-/
namespace Marginalia

/-- The values of template variables; an unknown variable is null. -/
abbrev Bindings := Text → Value

inductive Emission where
  | literal (t : Text)
  | lookup (key : Text) (filters : List Text)
deriving DecidableEq, Repr

namespace Emission

mutual

def ofToken (b : Bindings) : Token → List Emission
  | .text v => [.literal v]
  | .lookup k fs => [.lookup k fs]
  | .block k body => if (b k).isTruthy then ofTokens b body else []

/-- What a sequence of tokens puts out for given values. -/
def ofTokens (b : Bindings) : List Token → List Emission
  | [] => []
  | t :: rest => ofToken b t ++ ofTokens b rest

end

end Emission

structure RenderState where
  /-- The memory of pipelines, when there is one. -/
  pipelines : Option (Cache Text Pipeline) := none
  /-- What the clock shows. -/
  now : Binary64 := .zero
  /-- What it will show after each further look at it; then it stands still. -/
  ahead : List Binary64 := []
  log : Log := []
  /-- How many random texts have been drawn. -/
  drawn : Nat := 0

/-- A computation that may fail, and keeps what it did to the shared state even
then. -/
abbrev Render (α : Type) := ExceptT Fault (StateM RenderState) α

namespace Render

def report (e : LogEntry) : Render Unit := modify fun s => { s with log := s.log ++ [e] }

def ofExcept {α : Type} : Except Fault α → Render α
  | .ok a => pure a
  | .error e => throw e

/-- Look at the clock. -/
def clock : Render Binary64 :=
  modifyGet fun s =>
    match s.ahead with
    | [] => (s.now, s)
    | next :: rest => (s.now, { s with now := next, ahead := rest })

/-- The pipeline of some filters, from memory where it is there. -/
def pipeline (specs : List Text) : Render Pipeline := do
  match (← get).pipelines with
  | none => return Pipeline.ofSpecs specs
  | some cache =>
    let now ← clock
    let key := Pipeline.key specs
    match cache.lookup now key with
    | (some p, cache) =>
      modify fun s => { s with pipelines := some cache }
      return p
    | (none, cache) =>
      let p := Pipeline.ofSpecs specs
      let now ← clock
      modify fun s => { s with pipelines := some (cache.store now key p) }
      if !cache.hasBound then throw .noRoom
      report (.trace ("Compiled filter pipeline '".toList ++ key ++ ['\'']))
      return p

end Render

/-- A template made ready to render. -/
structure Compiled where
  tokens : List Token
  anomalies : List Anomaly
  quoting : Quoting

namespace Compiled

def ofTemplate (limit : Int) (template : Text) : Compiled :=
  let p := Parsed.ofTemplate limit template
  ⟨p.tokens, p.anomalies, Quoting.ofTemplate template⟩

/-- What making a template ready reports. -/
def log (c : Compiled) : Log :=
  c.anomalies.map (·.entry) ++
    [.trace ("Compiled template: ".toList ++ Text.ofNat c.tokens.length ++
      " top-level tokens, note quoting '".toList ++ c.quoting.name ++ ['\''])]

/-- The text of a variable before its filters; a note is quoted. -/
def variableText (c : Compiled) (b : Bindings) (key : Text) : Except Fault Text :=
  if key = "note".toList then c.quoting.noteText (b key) else (b key).templateText

def emissions (c : Compiled) (b : Bindings) : List Emission := Emission.ofTokens b c.tokens

/-- The text of one emission, without a memory of pipelines. -/
def emit (c : Compiled) (b : Bindings) : Emission → Except Fault Text
  | .literal t => .ok t
  | .lookup key filters => do
    (Pipeline.ofSpecs filters).run (← c.variableText b key)

def emitAll (c : Compiled) (b : Bindings) : List Emission → Except Fault Text
  | [] => .ok []
  | e :: rest => do
    let t ← c.emit b e
    let ts ← emitAll c b rest
    .ok (t ++ ts)

/-- The text a template renders for given values, by itself. -/
def render (c : Compiled) (b : Bindings) : Except Fault Text := c.emitAll b (c.emissions b)

/-- The text of one emission, with the shared memory of pipelines. -/
def emitShared (c : Compiled) (b : Bindings) : Emission → Render Text
  | .literal t => pure t
  | .lookup key filters => do
    let t ← Render.ofExcept (c.variableText b key)
    if filters.isEmpty then return t
    let p ← Render.pipeline filters
    Render.ofExcept (p.run t)

def emitAllShared (c : Compiled) (b : Bindings) : List Emission → Render Text
  | [] => pure []
  | e :: rest => do
    let t ← c.emitShared b e
    let ts ← emitAllShared c b rest
    return t ++ ts

/-- The text a template renders for given values, within a run. -/
def renderShared (c : Compiled) (b : Bindings) : Render Text := c.emitAllShared b (c.emissions b)

end Compiled
end Marginalia
