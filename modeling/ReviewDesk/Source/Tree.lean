/-!
# Syntax trees of Python programs

A `Node` carries a label that says what it is, the lines it stands on, and its parts in the order of
the grammar. Each part knows its role in the node above it, so `n.parts .body` are the statements of
a body and `n.part? .test` is a condition. A `Tree` is a node all of whose labels have the parts that
they ask for; what is read from a program is one.
-/

namespace ReviewDesk.Source

inductive Literal where
  | none
  | bool (b : Bool)
  | int (n : Nat)
  | real (x : Float)
  | imaginary (x : Float)
  /-- `marked` says that the first piece has the mark `u`. -/
  | text (s : List Char) (marked : Bool)
  | bytes (s : List Char)
  | ellipsis
  deriving Inhabited

inductive Use where
  | load
  | store
  | delete
  deriving DecidableEq

inductive BoolOp where
  | and
  | or
  deriving DecidableEq

inductive UnaryOp where
  | invert
  | not
  | plus
  | minus
  deriving DecidableEq

inductive BinaryOp where
  | add
  | sub
  | mult
  | matMult
  | div
  | mod
  | pow
  | shiftLeft
  | shiftRight
  | bitOr
  | bitXor
  | bitAnd
  | floorDiv
  deriving DecidableEq

inductive CompareOp where
  | eq
  | notEq
  | less
  | lessEq
  | greater
  | greaterEq
  | same
  | notSame
  | within
  | notWithin
  deriving DecidableEq

inductive Label where
  | module
  | function (name : String)
  | asyncFunction (name : String)
  | classDef (name : String)
  | ret
  | delete
  | assign
  | augAssign (op : BinaryOp)
  | annAssign
  | forLoop
  | asyncFor
  | whileLoop
  | ifThen
  | withBlock
  | asyncWith
  | matchBlock
  | raise
  | tryBlock
  | tryStar
  | assert
  | importNames
  | importFrom (module : Option String) (level : Nat)
  | global (names : List String)
  | nonlocal (names : List String)
  | exprStmt
  | pass
  | break
  | continue
  | boolOp (op : BoolOp)
  | namedExpr
  | binOp (op : BinaryOp)
  | unaryOp (op : UnaryOp)
  | lambda
  | ifExp
  /-- For each entry, whether it is the unpacking of another dictionary, which has no key. -/
  | dict (unpacked : List Bool)
  | set
  | listComp
  | setComp
  | dictComp
  | generatorExp
  | await
  | yield
  | yieldFrom
  | compare (ops : List CompareOp)
  | call
  | formattedValue (conversion : Option Char)
  | joinedText
  | constant (value : Literal)
  | attribute (name : String)
  | subscript
  | starred
  | name (id : String) (use : Use)
  | list
  | tuple
  | slice
  | comprehension (isAsync : Bool)
  | exceptHandler (name : Option String)
  /-- For each parameter that must be named, whether it has a default. -/
  | arguments (defaulted : List Bool)
  | arg (name : String)
  | keyword (name : Option String)
  | alias (name : String) (asName : Option String)
  | withItem
  | matchCase
  | matchValue
  | matchSingleton
  | matchSequence
  | matchMapping (rest : Option String)
  | matchClass (names : List String)
  | matchStar (name : Option String)
  | matchAs (name : Option String)
  | matchOr
  deriving Inhabited

/-- What a node is to the node above it. -/
inductive Role where
  | root
  | body
  | orElse
  | final
  | handler
  | test
  | iter
  | target
  | value
  | typeHint
  | returns
  | decorator
  | base
  | keyword
  | arguments
  | posOnly
  | arg
  | varArg
  | kwOnly
  | kwDefault
  | kwArg
  | default
  | left
  | right
  | operand
  | func
  | key
  | item
  | generator
  | condition
  | message
  | cause
  | context
  | lower
  | upper
  | step
  | index
  | format
  | subject
  | case
  | pattern
  | guard
  | kwPattern
  | type
  deriving DecidableEq, Inhabited

inductive Node where
  | mk (role : Role) (label : Label) (line endLine : Nat) (children : List Node)
  deriving Inhabited

namespace Node

def role : Node → Role
  | mk r _ _ _ _ => r

def label : Node → Label
  | mk _ l _ _ _ => l

def line : Node → Nat
  | mk _ _ n _ _ => n

def endLine : Node → Nat
  | mk _ _ _ n _ => n

def children : Node → List Node
  | mk _ _ _ _ cs => cs

def as (n : Node) (r : Role) : Node := mk r n.label n.line n.endLine n.children

def parts (n : Node) (r : Role) : List Node := n.children.filter (·.role = r)

def part? (n : Node) (r : Role) : Option Node := n.children.find? (·.role = r)

mutual

def size : Node → Nat
  | mk _ _ _ _ cs => sizeOfAll cs + 1

def sizeOfAll : List Node → Nat
  | [] => 0
  | c :: cs => size c + sizeOfAll cs

end

/-! ## Walking a tree -/

def joinRows : List (List Node) → List (List Node) → List (List Node)
  | [], bs => bs
  | as, [] => as
  | a :: as, b :: bs => (a ++ b) :: joinRows as bs

mutual

/-- The nodes of a tree by their distance from the root. -/
def rows : Node → List (List Node)
  | mk r l a b cs => [mk r l a b cs] :: rowsOf cs

def rowsOf : List Node → List (List Node)
  | [] => []
  | c :: cs => joinRows (rows c) (rowsOf cs)

end

/-- All nodes of a tree, those nearer to the root first, and from left to right in each row. -/
def walk (n : Node) : List Node := n.rows.flatten

end Node

/-! ## Well-formed trees -/

/-- An `and` or `or` has operands only, and at least two of them. -/
def Label.Fits : Label → List Node → Prop
  | .boolOp _, parts => 2 ≤ parts.length ∧ ∀ p ∈ parts, p.role = .value
  | _, _ => True

/-- Every label has the parts that it asks for. -/
inductive Node.WellFormed : Node → Prop
  | mk {role label line endLine children} (fits : label.Fits children)
      (parts : ∀ c ∈ children, c.WellFormed) : WellFormed (.mk role label line endLine children)

structure Tree where
  node : Node
  wellFormed : node.WellFormed

namespace Tree

def build (role : Role) (label : Label) (line endLine : Nat) (parts : List Tree)
    (fits : label.Fits (parts.map (·.node)) := by exact trivial) : Tree where
  node := .mk role label line endLine (parts.map (·.node))
  wellFormed := .mk fits fun _ hc => by
    obtain ⟨t, _, rfl⟩ := List.mem_map.mp hc
    exact t.wellFormed

def label (t : Tree) : Label := t.node.label

def as (t : Tree) (r : Role) : Tree where
  node := t.node.as r
  wellFormed := match t.node, t.wellFormed with
    | _, .mk fits parts => .mk fits parts

theorem node_parts {n : Node} (h : n.WellFormed) : ∀ c ∈ n.children, c.WellFormed := by
  cases h with
  | mk _ parts => exact parts

def parts (t : Tree) : List Tree :=
  t.node.children.attach.map fun c => ⟨c.1, node_parts t.wellFormed c.1 c.2⟩

end Tree

end ReviewDesk.Source
