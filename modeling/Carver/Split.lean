import Carver.Definition.Extract

/-!
# Splitting a text by a plan

Every request of the plan is tried in order on the text that the requests before it have left. What
came of it is a `Finding`, from which both the texts that moved and the outcome that is reported can
be read off. A split by `splitUnder` ends early if one of the patterns that it needs is refused.
-/

namespace Carver

/-- What came of one request. -/
inductive Finding where
  | function (name : String) (text : Text)
  | struct (name : String) (definition : Option Text) (impls : List Text)
  | miss (reason : Miss)
  deriving DecidableEq, Repr

namespace Finding

/-- The texts that moved, in order. -/
def fragments : Finding → List Text
  | .function _ text => [text]
  | .struct _ definition impls => definition.toList ++ impls
  | .miss _ => []

/-- Whether the definition was taken. -/
def isFound : Finding → Bool
  | .miss _ => false
  | _ => true

end Finding

/-- Tries one request; gives the finding and the text that is left. -/
def Request.take (text : Text) (request : Request) : Finding × Text :=
  match request.kind with
  | .function =>
    match extractFunction text request.name with
    | .ok e => (.function request.name e.text, e.remaining)
    | .error reason => (.miss reason, text)
  | .struct =>
    match extractStruct text request.name with
    | .ok e => (.struct request.name e.definition e.impls, e.remaining)
    | .error reason => (.miss reason, text)

/-- Applies `step` to each element in turn, handing the text along. -/
def thread {α β : Type} (step : Text → α → β × Text) (text : Text) : List α → List β × Text
  | [] => ([], text)
  | a :: rest =>
    let (b, left) := step text a
    let (bs, last) := thread step left rest
    (b :: bs, last)

/-- What one module received. -/
structure ModuleShare where
  name : String
  findings : List Finding
  deriving DecidableEq, Repr

namespace ModuleShare

/-- The texts that moved into the module, in order. -/
def fragments (share : ModuleShare) : List Text :=
  share.findings.flatMap (·.fragments)

end ModuleShare

/-- Tries the requests of one entry of the plan. -/
def ModulePlan.take (text : Text) (entry : ModulePlan) : ModuleShare × Text :=
  let (findings, left) := thread Request.take text entry.requests
  (⟨entry.name, findings⟩, left)

/-- What each module received, and the text that is left. -/
structure Split where
  modules : List ModuleShare
  remaining : Text
  deriving DecidableEq, Repr

/-- Tries every request of the plan, module by module. -/
def split (text : Text) (plan : Plan) : Split :=
  let (modules, remaining) := thread ModulePlan.take text plan
  ⟨modules, remaining⟩

/-! ## Patterns that are refused -/

/-- What is said against a pattern that is not taken, as one that is too large; none if it is
taken. -/
abbrev Refusals := Pattern → Option String

/-- The patterns that a request is tried with, in order. -/
def Request.patterns (request : Request) : List Pattern :=
  match request.kind with
  | .function => [Shape.function request.name]
  | .struct => [Shape.struct request.name, Shape.impl request.name]

/-- What is said against the first pattern of a request that is refused. -/
def Request.against (refusals : Refusals) (request : Request) : Option String :=
  request.patterns.findSome? refusals

/-- Tries one request, unless one of its patterns is refused. -/
def Request.takeUnder (refusals : Refusals) (text : Text) (request : Request) :
    Except String (Finding × Text) :=
  match request.against refusals with
  | some detail => .error detail
  | none => .ok (request.take text)

/-- Applies `step` to each element in turn, handing the text along, until one of them ends it; then
the results before that one are told. -/
def threadUntil {α β ε : Type} (step : Text → α → Except ε (β × Text)) (text : Text) :
    List α → Except (List β × ε) (List β × Text)
  | [] => .ok ([], text)
  | a :: rest =>
    match step text a with
    | .error fault => .error ([], fault)
    | .ok (b, left) =>
      match threadUntil step left rest with
      | .error (bs, fault) => .error (b :: bs, fault)
      | .ok (bs, last) => .ok (b :: bs, last)

/-- Tries the requests of one entry of the plan, up to one with a pattern that is refused. -/
def ModulePlan.takeUnder (refusals : Refusals) (text : Text) (entry : ModulePlan) :
    Except (List Finding × String) (ModuleShare × Text) :=
  match threadUntil (Request.takeUnder refusals) text entry.requests with
  | .error stop => .error stop
  | .ok (findings, left) => .ok (⟨entry.name, findings⟩, left)

/-- A split that was ended early: what its modules had received, what was found by then for the
module that was not done, and what is said against the pattern. -/
structure Interruption where
  modules : List ModuleShare
  findings : List Finding
  detail : String
  deriving DecidableEq, Repr

/-- Tries every request of the plan, module by module, up to one with a pattern that is refused. -/
def splitUnder (refusals : Refusals) (text : Text) (plan : Plan) : Except Interruption Split :=
  match threadUntil (ModulePlan.takeUnder refusals) text plan with
  | .error (modules, findings, detail) => .error ⟨modules, findings, detail⟩
  | .ok (modules, remaining) => .ok ⟨modules, remaining⟩

end Carver
