import ConditionalStyles.Condition.Basic
import ConditionalStyles.Report

/-!
# Conditions in configuration documents

A string is a leaf.  An object with exactly one of the keys `or` and `and`,
whose value is an array of conditions, is a composite; its other keys do not
matter.  Reading goes from a node to its operands and from left to right, and
the first malformed node on that way decides why a value is no condition.
-/

namespace ConditionalStyles

namespace Condition

/-! ## Writing -/

mutual

def toJson : Condition → Json
  | .leaf text => .string text
  | .composite operator operands =>
      .object [(operator.key, .array (toJsonAll operands))]

def toJsonAll : List Condition → List Json
  | [] => []
  | first :: rest => first.toJson :: toJsonAll rest

end

/-- The canonical text of a condition. -/
def text (condition : Condition) : String :=
  condition.toJson.compact

/-! ## Reading -/

inductive Malformed where
  | mixedOperators (node : Json)
  /-- The node is neither a string nor an object with one operator and an array
  of operands. -/
  | unrecognized

def operatorOf (members : Entries Json) : Except Malformed Operator :=
  match members.contains Operator.or.key, members.contains Operator.and.key with
  | true, false => .ok .or
  | false, true => .ok .and
  | true, true => .error (.mixedOperators (.object members))
  | false, false => .error .unrecognized

mutual

def decode : Json → Except Malformed Condition
  | .string text => .ok (.leaf text)
  | .object members =>
      match operatorOf members with
      | .ok operator =>
          match decodeMember operator.key members with
          | .ok operands => .ok (.composite operator operands)
          | .error malformed => .error malformed
      | .error malformed => .error malformed
  | _ => .error .unrecognized

def decodeMember (key : String) : Entries Json → Except Malformed (List Condition)
  | [] => .error .unrecognized
  | (name, value) :: rest =>
      if name = key then decodeOperands value else decodeMember key rest

def decodeOperands : Json → Except Malformed (List Condition)
  | .array items => decodeAll items
  | _ => .error .unrecognized

/-- The conditions that JSON values stand for, up to the first failure. -/
def decodeAll : List Json → Except Malformed (List Condition)
  | [] => .ok []
  | item :: rest =>
      match decode item with
      | .error malformed => .error malformed
      | .ok first =>
          match decodeAll rest with
          | .error malformed => .error malformed
          | .ok others => .ok (first :: others)

end

def Malformed.warnings : Malformed → List Warning
  | .mixedOperators node => [.mixedOperators node]
  | .unrecognized => []

/-- The condition that a JSON value stands for, if it is one, with a warning
if mixed operators are the reason why it is not. -/
def ofJson (value : Json) : Reported (Option Condition) :=
  match decode value with
  | .ok condition => pure (some condition)
  | .error malformed => { warnings := malformed.warnings, value := none }

def unrecognizedMessage (value : Json) : String :=
  "unrecognized hook condition: " ++ value.compact

structure Unrecognized where
  value : Json

/-- The text of the error, which quotes the whole value. -/
def Unrecognized.message (cause : Unrecognized) : String :=
  unrecognizedMessage cause.value

/-- The condition that a JSON value must stand for.  It is read as tolerantly as
elsewhere, but a value that is no condition is an error. -/
def require (value : Json) : Reported (Except Unrecognized Condition) := do
  match ← ofJson value with
  | some condition => pure (.ok condition)
  | none => pure (.error { value })

end Condition

end ConditionalStyles
