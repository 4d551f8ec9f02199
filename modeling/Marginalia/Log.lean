import Marginalia.Text.Basic

/-
Records of what a run does.  How much of it is shown is decided at the end, by
one number.
-/
namespace Marginalia

inductive Severity where
  /-- Shown from this verbosity on. -/
  | detail (level : Nat)
  /-- Shown always. -/
  | failure
deriving DecidableEq, Repr

def Severity.name : Severity → Text
  | .detail _ => "DEBUG".toList
  | .failure => "ERROR".toList

structure LogEntry where
  severity : Severity
  message : Text
deriving DecidableEq, Repr

abbrev Log := List LogEntry

namespace LogEntry

def progress (message : Text) : LogEntry := ⟨.detail 1, message⟩

def detail (message : Text) : LogEntry := ⟨.detail 2, message⟩

def trace (message : Text) : LogEntry := ⟨.detail 3, message⟩

def failure (message : Text) : LogEntry := ⟨.failure, message⟩

def isShown (verbosity : Int) (e : LogEntry) : Bool :=
  match e.severity with
  | .detail level => (level : Int) ≤ verbosity
  | .failure => true

end LogEntry

def Log.shown (verbosity : Int) (log : Log) : Log := log.filter (·.isShown verbosity)

end Marginalia
