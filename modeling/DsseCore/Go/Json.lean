import DsseCore.Go.Value

/-!
# JSON documents

A document is the tree that `encoding/json` reads, with the members of an object in the order they stand and a number
as its literal.  A raw message is such a tree: white space and the escapes inside a text carry no information.
-/

namespace DsseCore.Go

inductive Json where
  | null
  | bool (b : Bool)
  | number (literal : String)
  | str (s : String)
  | arr (l : List Json)
  | obj (members : List (String × Json))

namespace Json

mutual

def beq : Json → Json → Bool
  | null, null => true
  | bool a, bool b => a == b
  | number a, number b => a == b
  | str a, str b => a == b
  | arr a, arr b => beqList a b
  | obj a, obj b => beqMembers a b
  | _, _ => false

def beqList : List Json → List Json → Bool
  | [], [] => true
  | a :: l, b :: m => beq a b && beqList l m
  | _, _ => false

def beqMembers : List (String × Json) → List (String × Json) → Bool
  | [], [] => true
  | (j,a) :: l, (k,b) :: m => j == k && beq a b && beqMembers l m
  | _, _ => false

end

mutual

theorem beq_iff (a b : Json) : beq a b = true ↔ a = b := by
  cases a <;> cases b <;> simp [beq,beqList_iff,beqMembers_iff]

theorem beqList_iff (l m : List Json) : beqList l m = true ↔ l = m := by
  cases l <;> cases m <;> simp [beqList,beq_iff,beqList_iff]

theorem beqMembers_iff (l m : List (String × Json)) : beqMembers l m = true ↔ l = m := by
  match l, m with
  | [], [] => simp [beqMembers]
  | [], _ :: _ => simp [beqMembers]
  | _ :: _, [] => simp [beqMembers]
  | (j,a) :: l, (k,b) :: m => simp [beqMembers,beq_iff,beqMembers_iff]

end

instance : DecidableEq Json := fun a b => decidable_of_iff (beq a b = true) (beq_iff a b)

instance : Inhabited Json := ⟨null⟩

/-- Decoding into a `map[string]json.RawMessage` that must not stay nil: the last of several members with one name
is kept. -/
def members? : Json → Option (Map Json)
  | obj l => some (Map.ofEntries l)
  | _ => none

/-- The object a map is written as: its members in key order. -/
def ofMap (m : Map Json) : Json := obj m.toList

/-- Decoding into an `int` that was zero; `null` leaves it so. -/
def int? : Json → Option Int
  | null => some 0
  | number literal => atoi literal
  | _ => none

/-- Decoding into a `string` that holds `old`. -/
def string? (old : String) : Json → Option String
  | null => some old
  | str s => some s
  | _ => none

/-- Decoding into a `bool` that holds `old`. -/
def bool? (old : Bool) : Json → Option Bool
  | null => some old
  | bool b => some b
  | _ => none

/-- Decoding into a `[]string`; a `null` element is an empty text. -/
def strings? : Json → Option (List String)
  | null => some []
  | arr l => l.mapM (string? "")
  | _ => none

def ofStrings (l : List String) : Json := arr (l.map str)

@[simp] theorem strings?_ofStrings (l : List String) : strings? (ofStrings l) = some l := by
  have h : (l.map str).mapM (string? "") = some l := by
    induction l with
    | nil => rfl
    | cons s l ih => simp [string?,ih]
  exact h

@[simp] theorem members?_ofMap (m : Map Json) : members? (ofMap m) = some m := by
  simp [members?,ofMap]

end Json
end DsseCore.Go
