import SearchQuery.Token
set_option autoImplicit false

/-!
# Cursors

A cursor reads a token list from left to right, looks ahead, and returns to marked places. The
position it looks at is computed in 64-bit machine arithmetic: a distance that carries the sum past
the largest word comes back to the front of the list.
-/

namespace SearchQuery

/-- A place in a token list: the index of the next unread token. -/
structure Cursor where
  tokens : List Token
  index : Nat
deriving DecidableEq, Repr

structure Cursor.Mark where
  index : Nat
deriving DecidableEq, Repr

namespace Cursor

def start (tokens : List Token) : Cursor :=
  ⟨tokens, 0⟩

/-- The token some distance ahead. Index and distance are added as 64-bit words. -/
def peek (cursor : Cursor) (distance : UInt64) : Option Token :=
  cursor.tokens[(UInt64.ofNat cursor.index + distance).toNat]?

def peekKind (cursor : Cursor) (distance : UInt64) : Option TokenKind :=
  (cursor.peek distance).map Token.kind

def checkAt (cursor : Cursor) (distance : UInt64) (kind : TokenKind) : Bool :=
  cursor.peekKind distance == some kind

/-- The next token and the cursor after it; at the end, no token and the cursor as it was. -/
def bump (cursor : Cursor) : Option Token × Cursor :=
  match cursor.tokens[cursor.index]? with
  | some token => (some token, { cursor with index := cursor.index + 1 })
  | none => (none, cursor)

def mark (cursor : Cursor) : Mark :=
  ⟨cursor.index⟩

def rewind (cursor : Cursor) (mark : Mark) : Cursor :=
  { cursor with index := mark.index }

def atEnd (cursor : Cursor) : Bool :=
  cursor.tokens.length ≤ cursor.index

/-- The byte offset of the next token; at the end, where the last token stops. -/
def offset (cursor : Cursor) : Nat :=
  match cursor.tokens[cursor.index]? with
  | some token => token.start
  | none => (cursor.tokens.getLast?.map Token.stop).getD 0

end Cursor

end SearchQuery
