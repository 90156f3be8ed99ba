import ReviewDesk.Text.Basic

/-!
# Patterns

A `Pattern` describes stretches of a text. Its choices are ordered: `Pattern.ends` lists the places
where a stretch that begins at a given place can end, best first, and a match is the first of them.
`Pattern.run` looks for the first end that a continuation accepts, without listing the others.
-/

namespace ReviewDesk

/-- A place in a text: the character before it, how many characters were read, what is left. -/
structure Cursor where
  before : Option Char
  offset : Nat
  rest : Chars
  deriving DecidableEq, Repr

def Cursor.start (text : Chars) : Cursor := ⟨none, 0, text⟩

structure Capture where
  number : Nat
  offset : Nat
  text : Chars
  deriving DecidableEq, Repr

/-- A place together with the stretches captured on the way to it, latest first. -/
structure Progress where
  cursor : Cursor
  captures : List Capture
  deriving DecidableEq, Repr

inductive Pattern where
  | empty
  | one (ok : Char → Bool)
  /-- A run of characters of a class, as long as possible if `greedy`, else as short. -/
  | run (ok : Char → Bool) (least : Nat) (greedy : Bool)
  /-- A place with a word character on exactly one side. -/
  | wordEdge
  | capture (number : Nat) (p : Pattern)
  | seq (p q : Pattern)
  | either (p q : Pattern)
  | optional (p : Pattern)

namespace Pattern

instance : Append Pattern := ⟨seq⟩

/-- The places reached by reading characters of a class one by one, the nearest first. -/
def places (ok : Char → Bool) : Option Char → Nat → Chars → List Cursor
  | before, n, [] => [⟨before, n, []⟩]
  | before, n, c :: r => ⟨before, n, c :: r⟩ :: if ok c then places ok (some c) (n + 1) r else []

/-- Where a run of at least `least` characters can end, best first. -/
def runEnds (ok : Char → Bool) (least : Nat) (greedy : Bool) (c : Cursor) : List Cursor :=
  let found := (places ok c.before c.offset c.rest).drop least
  if greedy then found.reverse else found

def atWordEdge (c : Cursor) : Bool :=
  let left := (c.before.map Text.isWord).getD false
  let right := (c.rest.head?.map Text.isWord).getD false
  left != right

/-- Records the stretch from `from_` to the place reached. -/
def record (number : Nat) (from_ : Cursor) (s : Progress) : Progress :=
  ⟨s.cursor, ⟨number, from_.offset, from_.rest.take (s.cursor.offset - from_.offset)⟩ :: s.captures⟩

/-- All ways to match from a place, best first. -/
def ends : Pattern → Progress → List Progress
  | empty, s => [s]
  | one ok, s =>
    match s.cursor.rest with
    | [] => []
    | c :: r => if ok c then [⟨⟨some c, s.cursor.offset + 1, r⟩, s.captures⟩] else []
  | run ok least greedy, s => (runEnds ok least greedy s.cursor).map fun c => ⟨c, s.captures⟩
  | wordEdge, s => if atWordEdge s.cursor then [s] else []
  | capture number p, s => (ends p s).map (record number s.cursor)
  | seq p q, s => (ends p s).flatMap (ends q)
  | either p q, s => ends p s ++ ends q s
  | optional p, s => ends p s ++ [s]

/-- The first way to match that `k` accepts. -/
def first {α : Type} : Pattern → Progress → (Progress → Option α) → Option α
  | empty, s, k => k s
  | one ok, s, k =>
    match s.cursor.rest with
    | [] => none
    | c :: r => if ok c then k ⟨⟨some c, s.cursor.offset + 1, r⟩, s.captures⟩ else none
  | run ok least greedy, s, k =>
    (runEnds ok least greedy s.cursor).findSome? fun c => k ⟨c, s.captures⟩
  | wordEdge, s, k => if atWordEdge s.cursor then k s else none
  | capture number p, s, k => first p s fun t => k (record number s.cursor t)
  | seq p q, s, k => first p s fun t => first q t k
  | either p q, s, k => (first p s k).or (first q s k)
  | optional p, s, k => (first p s k).or (k s)

theorem first_eq {α : Type} (p : Pattern) (s : Progress) (k : Progress → Option α) :
    p.first s k = (p.ends s).findSome? k := by
  induction p generalizing s k with
  | empty => simp [first, ends]
  | one ok =>
    simp only [first, ends]
    split
    · rfl
    · split <;> simp
  | run ok least greedy => simp [first, ends, List.findSome?_map, Function.comp_def]
  | wordEdge => simp only [first, ends]; split <;> simp
  | capture number p ih => simp [first, ends, ih, List.findSome?_map, Function.comp_def]
  | seq p q ihp ihq =>
    simp only [first, ends, ihp, ihq]
    induction p.ends s with
    | nil => rfl
    | cons t ts ih =>
      simp only [List.findSome?_cons, List.flatMap_cons, List.findSome?_append,
                 ih]; cases List.findSome? k (q.ends t) <;> rfl
  | either p q ihp ihq => simp [first, ends, ihp, ihq, List.findSome?_append]
  | optional p ih => simp [first, ends, ih, List.findSome?_append]

/-! ## Building patterns -/

def char (c : Char) : Pattern := one (· = c)

def lit (s : String) : Pattern := s.toList.foldr (fun c p => seq (char c) p) empty

def letters (s : String) : Pattern :=
  s.toList.foldr (fun c p => seq (one (Text.sameLetter c)) p) empty

def oneOfTexts (f : String → Pattern) : List String → Pattern
  | [] => empty
  | [s] => f s
  | s :: r => either (f s) (oneOfTexts f r)

def among (s : String) (c : Char) : Bool := s.toList.contains c

def notAmong (s : String) (c : Char) : Bool := !s.toList.contains c

def quoteMark : Pattern := one (among "'\"")

def isInLine (c : Char) : Bool := c != '\n'

def blanks : Pattern := run Text.isBlank 0 true

def gap : Pattern := run Text.isBlank 1 true

def word : Pattern := run Text.isWord 1 true

def line : Pattern := run isInLine 0 true

def lineLazy : Pattern := run isInLine 0 false

/-- A run, as long as possible, of characters not in `s`. -/
def without (s : String) (least : Nat) : Pattern := run (notAmong s) least true

end Pattern

/-! ## Matches -/

structure Match where
  start : Nat
  stop : Nat
  text : Chars
  captures : List Capture
  deriving DecidableEq, Repr

namespace Match

def group? (m : Match) (n : Nat) : Option Chars :=
  (m.captures.find? (·.number == n)).map (·.text)

def groupText? (m : Match) (n : Nat) : Option String := (m.group? n).map .ofList

def groupText (m : Match) (n : Nat) : String := (m.groupText? n).getD ""

end Match

namespace Pattern

variable (p : Pattern)

def matchAt (c : Cursor) : Option Match :=
  p.first ⟨c, []⟩ fun s =>
    some ⟨c.offset, s.cursor.offset, c.rest.take (s.cursor.offset - c.offset), s.captures⟩

def matchStart (text : Chars) : Option Match := p.matchAt (.start text)

def matchWhole (text : Chars) : Option Match :=
  p.first ⟨.start text, []⟩ fun s =>
    if s.cursor.rest.isEmpty then some ⟨0, s.cursor.offset, text, s.captures⟩ else none

/-- The leftmost match from a place on. -/
def searchFrom : Option Char → Nat → Chars → Option Match
  | before, n, [] => p.matchAt ⟨before, n, []⟩
  | before, n, c :: r =>
    match p.matchAt ⟨before, n, c :: r⟩ with
    | some m => some m
    | none => searchFrom (some c) (n + 1) r

def search (text : Chars) : Option Match := p.searchFrom none 0 text

def occursIn (text : Chars) : Bool := (p.search text).isSome

/-- The matches from a place on, leftmost first; the first `skip` characters belong to the match
before. -/
def allFrom : Nat → Option Char → Nat → Chars → List Match
  | _, _, _, [] => []
  | skip + 1, _, n, c :: r => allFrom skip (some c) (n + 1) r
  | 0, before, n, c :: r =>
    match p.matchAt ⟨before, n, c :: r⟩ with
    | some m => m :: allFrom (m.stop - m.start - 1) (some c) (n + 1) r
    | none => allFrom 0 (some c) (n + 1) r

/-- All matches that do not overlap, leftmost first, of a pattern that matches no empty stretch. -/
def all (text : Chars) : List Match := p.allFrom 0 none 0 text

def replaceFrom (f : Match → Chars) : Nat → Option Char → Nat → Chars → Chars
  | _, _, _, [] => []
  | skip + 1, _, n, c :: r => replaceFrom f skip (some c) (n + 1) r
  | 0, before, n, c :: r =>
    match p.matchAt ⟨before, n, c :: r⟩ with
    | some m => f m ++ replaceFrom f (m.stop - m.start - 1) (some c) (n + 1) r
    | none => c :: replaceFrom f 0 (some c) (n + 1) r

def replace (f : Match → Chars) (text : Chars) : Chars := p.replaceFrom f 0 none 0 text

end Pattern

end ReviewDesk
