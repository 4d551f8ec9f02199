import Marginalia.Value.Literal

/-
Annotations: highlights of a book, with the notes made on them.
-/
namespace Marginalia

/-- One highlight.  Everything but the page is kept as it was found. -/
structure Annotation where
  text : Value := .text []
  datetime : Value := .text []
  pageno : Int := 0
  note : Value := .null
  color : Value := .null
  drawer : Value := .null
  chapter : Value := .null
  /-- The publisher's label of the page, shown in place of its number. -/
  pageref : Value := .null
  pos0 : Value := .null
  pos1 : Value := .null
  id : Value := .null
deriving Repr, Inhabited

namespace Annotation

/-- The whole number a floating-point one is equal to. -/
def wholePage (x : Binary64) (shown : Text) : Except Fault Int :=
  match if x.isWhole then x.truncate? else none with
  | some n => .ok n
  | none => .error (.pageNotWhole shown)

/-- A page from a value: whole numbers, numbers without a fraction, and texts
that read as one; a page that is missing is 0. -/
def page (v : Value) : Except Fault Int :=
  match v with
  | .null => .ok 0
  | .int n => .ok n
  | .float x => wholePage x x.text
  | .text t =>
    match Decimal.read? t with
    | some x => wholePage x (Text.quoted t)
    | none => .error (.pageNotNumber (Text.quoted t))
  | v => .error (.pageOfKind v.kind)

/-- An annotation from the entries of a map; entries with other keys do not
count. -/
def ofEntries (es : List (Value × Value)) : Except Fault Annotation := do
  let field (name : String) (default : Value) : Value :=
    (Value.lookup name.toList es).getD default
  let pageno ← page (field "pageno" .null)
  return {
    text := field "text" (.text [])
    datetime := field "datetime" (.text [])
    pageno
    note := field "note" .null
    color := field "color" .null
    drawer := field "drawer" .null
    chapter := field "chapter" .null
    pageref := field "pageref" .null
    pos0 := field "pos0" .null
    pos1 := field "pos1" .null
    id := field "id" .null }

def ofValue : Value → Except Fault Annotation
  | .map es => ofEntries es
  | _ => .error .noSuchOperation

/-- The annotations of a list; what is not a map is passed over. -/
def ofList : List Value → Except Fault (List Annotation)
  | [] => .ok []
  | .map es :: rest => do
    let a ← ofEntries es
    let as ← ofList rest
    .ok (a :: as)
  | _ :: rest => ofList rest

/-- The chapter's title without blanks around it. -/
def chapterTitle (a : Annotation) : Except Fault Text :=
  if !a.chapter.isTruthy then .ok []
  else match a.chapter with
    | .text t => .ok (Text.strip t)
    | _ => .error .noSuchOperation

end Annotation
end Marginalia
