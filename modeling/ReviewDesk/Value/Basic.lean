import ReviewDesk.Decimal

/-!
# Values of a data format

A `Value` is what a JSON text stands for: fields keep the order in which they were given, and whole
numbers of any size are kept apart from floating-point ones.
-/

namespace ReviewDesk

inductive Value where
  | null
  | bool (b : Bool)
  | int (n : Int)
  | real (x : Float)
  | text (s : String)
  | list (items : List Value)
  | object (fields : List (String × Value))
  deriving Inhabited, Repr

abbrev Fields := List (String × Value)

namespace Fields

def get? (fs : Fields) (key : String) : Option Value := (fs.find? (·.1 == key)).map (·.2)

def has (fs : Fields) (key : String) : Bool := fs.any (·.1 == key)

/-- Gives `key` the value `v`: in its old place if it has one, else at the end. -/
def set (fs : Fields) (key : String) (v : Value) : Fields :=
  if fs.has key then fs.map fun f => if f.1 == key then (key, v) else f else fs ++ [(key, v)]

def merge (fs new : Fields) : Fields := new.foldl (fun acc f => acc.set f.1 f.2) fs

end Fields

namespace Value

def get? (v : Value) (key : String) : Option Value :=
  match v with
  | .object fs => Fields.get? fs key
  | _ => none

def getD (v : Value) (key : String) : Value := (v.get? key).getD .null

def isNull : Value → Bool
  | null => true
  | _ => false

/-- Neither null, false, zero nor empty. -/
def truthy : Value → Bool
  | null => false
  | bool b => b
  | int n => n != 0
  | real x => x != 0
  | text s => !s.isEmpty
  | list xs => !xs.isEmpty
  | object fs => !fs.isEmpty

def ofOption (f : α → Value) : Option α → Value
  | some a => f a
  | none => null

def ofText? : Option String → Value := ofOption text

def ofNat (n : Nat) : Value := int n

def ofTexts (xs : List String) : Value := list (xs.map text)

def text? : Value → Option String
  | text s => some s
  | _ => none

def list? : Value → Option (List Value)
  | list xs => some xs
  | _ => none

def fields? : Value → Option Fields
  | object fs => some fs
  | _ => none

/-! ## Equality

Numbers are compared by value, so that true, 1 and 1.0 are equal; the order of fields does not
count.
-/

/-- The numbers among the values. -/
inductive Number where
  | whole (n : Int)
  | real (x : Float)

def number? : Value → Option Number
  | bool b => some (.whole (if b then 1 else 0))
  | int n => some (.whole n)
  | real x => some (.real x)
  | _ => none

namespace Number

/-- The order of two numbers by their exact values; none if one of them is not a number. -/
def compare? : Number → Number → Option Ordering
  | whole a, whole b => some (compare a b)
  | real x, real y =>
    if x < y then some .lt else if x == y then some .eq else if y < x then some .gt else none
  | whole a, real y =>
    if y.isNaN then none
    else if y.isInf then some (if y < 0 then .gt else .lt)
    else some (Decimal.compareInt a y)
  | real x, whole b =>
    if x.isNaN then none
    else if x.isInf then some (if x < 0 then .lt else .gt)
    else some (Decimal.compareInt b x).swap

def toFloat : Number → Float
  | whole n => Decimal.floatOfInt n
  | real x => x

end Number

/-- A number that equals no number, not even itself. -/
def isNaN : Value → Bool
  | real x => x.isNaN
  | _ => false

mutual

def same : Value → Value → Bool
  | null, null => true
  | text a, text b => a == b
  | list xs, list ys => sameList xs ys
  | object fs, object gs => fs.length == gs.length && sameFields fs gs
  | a, b => match a.number?, b.number? with
    | some m, some n => m.compare? n == some .eq
    | _, _ => false

/-- The items are equal; what equals nothing is taken to be the same item again. -/
def sameList : List Value → List Value → Bool
  | [], [] => true
  | x :: xs, y :: ys => (same x y || (x.isNaN && y.isNaN)) && sameList xs ys
  | _, _ => false

def sameFields : List (String × Value) → List (String × Value) → Bool
  | [], _ => true
  | (k, v) :: fs, gs => (match Fields.get? gs k with
    | some w => same v w || (v.isNaN && w.isNaN)
    | none => false) && sameFields fs gs

end

/-- Equal as items of a list. -/
def alike (a b : Value) : Bool := same a b || (a.isNaN && b.isNaN)

/-! ## Text -/

def intText (n : Int) : String :=
  if n < 0 then "-" ++ String.ofList (Decimal.natDigits n.natAbs)
  else String.ofList (Decimal.natDigits n.natAbs)

mutual

/-- A value as it is shown inside a listing. -/
def shown : Value → String
  | null => "None"
  | bool true => "True"
  | bool false => "False"
  | int n => intText n
  | real x => Decimal.floatText x
  | text s => Text.quoted s
  | list xs => "[" ++ ", ".intercalate (shownList xs) ++ "]"
  | object fs => "\x7b" ++ ", ".intercalate (shownFields fs) ++ "\x7d"

def shownList : List Value → List String
  | [] => []
  | x :: xs => shown x :: shownList xs

def shownFields : List (String × Value) → List String
  | [] => []
  | (k, v) :: fs => (Text.quoted k ++ ": " ++ shown v) :: shownFields fs

end

/-- A value as text of its own: like `shown`, but a text stands without quotes. -/
def plain : Value → String
  | text s => s
  | v => v.shown

end Value

namespace Tally

/-!
## Tallies

Sums over lists, how often names occur, and shares in percent.
-/

def sumOf {α : Type} (count : α → Nat) (xs : List α) : Nat := xs.foldr (fun x n => count x + n) 0

@[simp]
theorem sumOf_nil {α : Type} (count : α → Nat) : sumOf count [] = 0 := rfl

@[simp]
theorem sumOf_cons {α : Type} (count : α → Nat) (x : α) (xs : List α) :
    sumOf count (x :: xs) = count x + sumOf count xs := rfl

theorem sumOf_eq_zero {α : Type} {count : α → Nat} {xs : List α} :
    sumOf count xs = 0 ↔ ∀ x ∈ xs, count x = 0 := by
  induction xs with
  | nil => simp
  | cons x xs ih => rw [sumOf_cons, Nat.add_eq_zero_iff, ih, List.forall_mem_cons]

theorem sumOf_append {α : Type} (count : α → Nat) (xs ys : List α) :
    sumOf count (xs ++ ys) = sumOf count xs + sumOf count ys := by
  induction xs with
  | nil => simp
  | cons x xs ih => rw [List.cons_append, sumOf_cons, sumOf_cons, ih, Nat.add_assoc]

theorem sumOf_add {α : Type} (f g : α → Nat) (xs : List α) :
    sumOf (fun x => f x + g x) xs = sumOf f xs + sumOf g xs := by
  induction xs with
  | nil => rfl
  | cons x xs ih =>
    simp only [sumOf_cons, ih]
    omega

theorem sumOf_congr {α : Type} {f g : α → Nat} {xs : List α} (h : ∀ x ∈ xs, f x = g x) :
    sumOf f xs = sumOf g xs := by
  induction xs with
  | nil => rfl
  | cons x xs ih =>
    obtain ⟨hx, hxs⟩ := List.forall_mem_cons.mp h
    rw [sumOf_cons, sumOf_cons, hx, ih hxs]

theorem sumOf_ite {α : Type} (p : α → Bool) (xs : List α) :
    sumOf (fun x => if p x then 1 else 0) xs = xs.countP p := by
  induction xs with
  | nil => rfl
  | cons x xs ih => rw [sumOf_cons, ih, List.countP_cons, Nat.add_comm]

theorem sumOf_filter {α : Type} (p : α → Bool) (count : α → Nat) (xs : List α) :
    sumOf count (xs.filter p) = sumOf (fun x => if p x then count x else 0) xs := by
  induction xs with
  | nil => rfl
  | cons x xs ih =>
    rw [sumOf_cons, ← ih]
    cases hx : p x <;> simp [hx]

def countName (name : String) : List (String × Nat) → List (String × Nat)
  | [] => [(name, 1)]
  | (k, n) :: rest => if k == name then (k, n + 1) :: rest else (k, n) :: countName name rest

/-- How often each name occurs, in the order of first occurrence. -/
def counts (names : List String) : List (String × Nat) :=
  names.foldl (fun acc name => countName name acc) []

def report (cs : List (String × Nat)) : Value := .object (cs.map fun c => (c.1, .ofNat c.2))

/-- A share in percent; of nothing it is zero. -/
def percent (part whole : Nat) : Value :=
  if whole = 0 then .int 0 else .real (part.toFloat / whole.toFloat * 100)

end Tally

/-! ## Faults -/

/-- What is wrong with one field of a request, and where the field stands. -/
structure FieldError where
  place : List Value
  message : String
  kind : String
  context : Option Fields := none

inductive Fault where
  /-- A value that the rules of the domain do not admit. -/
  | invalid (message : String)
  | missingKey (key : String)
  /-- An object without an entry for a number. -/
  | missingIndex (n : Int)
  /-- A value of a kind that an operation cannot work with. -/
  | mistyped (message : String)
  | noAttribute (message : String)
  | outOfRange (message : String)
  /-- Something outside failed. -/
  | failed (message : String)
  | tooLarge (message : String)
  /-- Rows that the rules of a table do not admit together. -/
  | conflict (message : String)
  /-- A value that a query cannot take. -/
  | badParameter (message : String)
  | unknownColumn (name : String)
  | severalRows
  | rejected (status : Nat) (detail : Value) (headers : Option Fields)
  | invalidFields (errors : List FieldError)
  | badSource
  | badJson (message : String)
  | gitCommand (message : String)
  | notARepository (message : String)
  /-- A file where a folder was to be made. -/
  | alreadyThere (path : String)

namespace Fault

def denied (status : Nat) (detail : String) : Fault := .rejected status (.text detail) none

def zoneMismatch : Fault := .mistyped "can't compare offset-naive and offset-aware datetimes"

def message : Fault → String
  | invalid m | mistyped m | noAttribute m | outOfRange m | failed m | tooLarge m => m
  | conflict m | badParameter m | badJson m | gitCommand m | notARepository m => m
  | missingKey key => Text.quoted key
  | missingIndex n => Value.intText n
  | severalRows => "Multiple rows were found when one or none was required"
  | unknownColumn name => "Invalid expression type: " ++ Text.quoted name
  | alreadyThere path => "File exists: " ++ Text.quoted path
  | rejected .. => ""
  | invalidFields _ => ""
  | badSource => ""

end Fault

abbrev Outcome := Except Fault

namespace Outcome

def getD {α : Type} (x : Outcome α) (a : α) : α :=
  match x with
  | .ok v => v
  | .error _ => a

end Outcome

namespace Value

/-!
## Working with values of any kind

Reading a field, going through the items and adding numbers can fail: an object may lack the field,
a value may not be of a kind that has fields, items or a sum.
-/

/-- What a value is called in messages. -/
def kindName : Value → String
  | null => "NoneType"
  | bool _ => "bool"
  | int _ => "int"
  | real _ => "float"
  | text _ => "str"
  | list _ => "list"
  | object _ => "dict"

def item (v : Value) (key : String) : Outcome Value :=
  match v with
  | .object fs =>
    match Fields.get? fs key with
    | some x => .ok x
    | none => .error (.missingKey key)
  | .list _ => .error (.mistyped "list indices must be integers or slices, not str")
  | .text _ => .error (.mistyped "string indices must be integers, not 'str'")
  | v => .error (.mistyped s!"'{v.kindName}' object is not subscriptable")

/-- The items of a list, the names of an object's fields, the characters of a text. -/
def items (v : Value) : Outcome (List Value) :=
  match v with
  | .list xs => .ok xs
  | .object fs => .ok (fs.map fun f => .text f.1)
  | .text s => .ok (s.toList.map fun c => .text (.ofList [c]))
  | v => .error (.mistyped s!"'{v.kindName}' object is not iterable")

def textOf (v : Value) (method : String) : Outcome String :=
  match v with
  | .text s => .ok s
  | v => .error (.noAttribute s!"'{v.kindName}' object has no attribute '{method}'")

def listed (v : Value) : List Value := v.list?.getD []

def texts (v : Value) : List String := v.listed.filterMap text?

def fields (v : Value) : Fields := v.fields?.getD []

def plus (a b : Value) : Outcome Value :=
  match a.number?, b.number? with
  | some (.whole m), some (.whole n) => .ok (.int (m + n))
  | some m, some n => .ok (.real (m.toFloat + n.toFloat))
  | _, _ =>
    .error (.mistyped s!"unsupported operand type(s) for +: '{a.kindName}' and '{b.kindName}'")

mutual

/-- Whether `a` is less than `b`: both numbers, both texts, or both lists. -/
def less : Value → Value → Outcome Bool
  | .text s, .text t => .ok (decide (s < t))
  | .list xs, .list ys => lessList xs ys
  | a, b =>
    match a.number?, b.number? with
    | some m, some n => .ok (m.compare? n == some .lt)
    | _, _ =>
      .error (.mistyped s!"'<' not supported between instances of '{a.kindName}' and '{b.kindName}'")

/-- The first items that differ decide; a list that ends before is less. -/
def lessList : List Value → List Value → Outcome Bool
  | [], ys => .ok !ys.isEmpty
  | _ :: _, [] => .ok false
  | x :: xs, y :: ys => if x.alike y then lessList xs ys else less x y

end

def sum (vs : List Value) : Outcome Value := vs.foldlM plus (.int 0)

def dividedBy (v : Value) (n : Nat) : Outcome Value :=
  match v.number? with
  | some m => .ok (.real (m.toFloat / n.toFloat))
  | none => .error (.mistyped s!"unsupported operand type(s) for /: '{v.kindName}' and 'int'")

def mean (vs : List Value) (default : Value) : Outcome Value := do
  if vs.isEmpty then return default else (← sum vs).dividedBy vs.length

end Value

end ReviewDesk
