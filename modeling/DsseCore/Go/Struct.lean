import DsseCore.Go.Json
import DsseCore.Go.Strings

/-!
# Decoding an object into a struct

The members of an object are read in order, each into the field with its name, or else into a field whose name is equal
up to case.  A strict decoder refuses a member that no field takes.
-/

namespace DsseCore.Go.Json

variable {α : Type}

/-- A field of a struct: its name, and how a member changes the struct. -/
abbrev StructField (α : Type) := String × (Json → α → Option α)

def textField (name : String) (get : α → String) (set : String → α → α) : StructField α :=
  (name,fun v a => (v.string? (get a)).map fun s => set s a)

def boolField (name : String) (get : α → Bool) (set : Bool → α → α) : StructField α :=
  (name,fun v a => (v.bool? (get a)).map fun b => set b a)

def intField (name : String) (set : Int → α → α) : StructField α :=
  (name,fun v a => match v with
    | null => some a
    | number literal => (atoi literal).map fun n => set n a
    | bool _ | str _ | arr _ | obj _ => none)

def structField? (fields : List (StructField α)) (key : String) : Option (StructField α) :=
  (fields.find? fun f => f.1 == key).or (fields.find? fun f => equalFold key f.1)

def readMember (strict : Bool) (fields : List (StructField α)) (r : Option α) (e : String × Json) : Option α :=
  r.bind fun a => match structField? fields e.1 with
    | some f => f.2 e.2 a
    | none => if strict then none else some a

def readStruct (strict : Bool) (fields : List (StructField α)) (a : α) : Json → Option α
  | null => some a
  | obj l => l.foldl (readMember strict fields) (some a)
  | bool _ | number _ | str _ | arr _ => none

end DsseCore.Go.Json
