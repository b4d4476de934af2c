import Prototypal.Kind

/-!
# Expressions

A script is a list of expressions.  An expression works on objects and on *host* values, which
live outside the object graph: truth values, whole numbers, texts and structures.

Expressions are grouped by the shape of their operands, so that the order of evaluation is said
once per shape: operands are evaluated from left to right, and the operation follows.

* `Nullary`, `Unary`, `Binary` — operations on no, one and two objects.
* `KeyQuery`, `Keyed`, `KeyedValue` — operations on a key, an object and a key, and those with a
  value.
* `Expr` — the operations applied to operands, literals built from other expressions, calls,
  boundaries, and the control forms.
* `KeyExpr` — how an attribute key is written.
-/

namespace Prototypal

/-- The four ways of reaching an attribute that are checked. -/
inductive Access where
  | get
  | set
  | delete
  | call
deriving DecidableEq, Repr

/-- The name of an access, as messages show it. -/
def Access.name : Access → String
  | get => "get"
  | set => "set"
  | delete => "delete"
  | call => "call"

/-- Operations without operands.  What they are given is written in the script itself. -/
inductive Nullary where
  /-- A host truth value. -/
  | hostBool (b : Bool)
  /-- A host number. -/
  | hostInt (n : Int)
  /-- A host text. -/
  | hostText (s : String)
  /-- A new Boolean. -/
  | boolean (b : Bool)
  /-- A new Number. -/
  | number (n : Float)
  /-- A new Text. -/
  | text (s : String)
  /-- A new object without ancestors. -/
  | root
  /-- A new object that carries the base attributes. -/
  | pristine
  /-- Uses up an identity. -/
  | freshId
  /-- The receiver of the running body. -/
  | receiver
  /-- The object on which the running attribute was found. -/
  | holder
  /-- The argument at a position. -/
  | argument (n : Nat)
  /-- All arguments, as a new List. -/
  | arguments
  /-- How many arguments there are. -/
  | argumentCount
  /-- Whether the running body has a receiver. -/
  | isBound
  /-- How many boundaries are active. -/
  | depth
  /-- The strictness in force. -/
  | strictness
  /-- Changes the strictness to the one of that name. -/
  | setStrictness (name : String)
  /-- Fixes the settings that a document describes. -/
  | configure (document : String)
  /-- Whether the settings have been fixed. -/
  | isConfigured
  /-- The settings in force. -/
  | settings
  /-- What is known of the symbol of a name. -/
  | symbolInfo (name : String)
  /-- The order of two names' symbols. -/
  | symbolOrder (a b : String)
  /-- The coercion that a name stands for. -/
  | coercionOf (name : String)
deriving Repr

/-- Operations on one object. -/
inductive Unary where
  /-- A new object whose parent is the operand. -/
  | child
  /-- A shallow copy. -/
  | clone
  /-- Puts the base attributes on the operand. -/
  | install
  /-- A child, made without an initializer. -/
  | birth
  /-- What the slots hold, in numbers and identities. -/
  | slotsInfo
  /-- Drops the parent. -/
  | detach
  /-- The parent, if there is one. -/
  | parent
  /-- The stepparents. -/
  | stepparents
  /-- The members of a List of keys, sorted. -/
  | keyList
  /-- The name of the payload's kind. -/
  | kind
  /-- The object in the notation for diagnosis. -/
  | inspect
  /-- The payload, if it is of that kind. -/
  | payload (kind : Kind)
  /-- What a coercion makes of the object without calling anything. -/
  | coercion (c : Coercion)
  /-- Calls the coercion attribute and checks the answer. -/
  | coerce (c : Coercion)
  /-- What is known of a closure. -/
  | closureInfo
  /-- Whether the boundary of a marker object is active. -/
  | isActive
  /-- Leaves that many boundaries with the operand. -/
  | returnLevels (n : Nat)
  /-- Raises an escape over that many boundaries, unchecked. -/
  | raiseLevels (n : Nat)
deriving Repr

/-- Operations on two objects. -/
inductive Binary where
  /-- Whether the second is found among the ancestors of the first. -/
  | isA
  /-- Whether the two are the same object. -/
  | identical
  /-- Makes the second the parent of the first. -/
  | setParent
  /-- Makes the second the last stepparent of the first. -/
  | pushStepparent
  /-- A new closure object with the body of the first and the second as receiver. -/
  | bind
  /-- Whether two closures run the same body. -/
  | sharesBody
  /-- A child of the first, initialized by the second. -/
  | birthWith
  /-- Leaves the boundary of the first with the second. -/
  | returnTo
  /-- Raises an escape to the boundary of the first with the second, unchecked. -/
  | raiseTo
deriving Repr

/-- Operations on a key alone. -/
inductive KeyQuery where
  /-- What is known of the key. -/
  | info
  /-- The object that stands for the key. -/
  | toObject
deriving Repr

/-- Operations on an object and a key. -/
inductive Keyed where
  /-- The value along the ancestors, Null if there is none. -/
  | get
  /-- Removes the own entry and gives it back. -/
  | delete
  /-- Whether there is an own entry. -/
  | has
  /-- Whether there is an entry along the ancestors. -/
  | respondTo
  /-- The value above the own entry, Null if there is none. -/
  | superGet
  /-- The value along the ancestors, if there is one. -/
  | lookup
  /-- The value above the own entry, if there is one. -/
  | superLookup
  /-- The value along the ancestors and the object that holds it. -/
  | resolve
  /-- Whether the slots have an entry. -/
  | slotHas
  /-- The entry of the slots, if there is one. -/
  | slotGet
  /-- Removes an entry of the slots, unchecked. -/
  | slotDelete
  /-- Whether the key may no longer be written. -/
  | isReadonly
  /-- Forbids further writes to the key. -/
  | makeReadonly
  /-- The check that follows an access which produced nothing. -/
  | checkNothing (access : Access)
deriving Repr

/-- Operations on an object, a key and a value. -/
inductive KeyedValue where
  /-- Writes an own entry. -/
  | set
  /-- Writes an entry of the slots, unchecked. -/
  | slotSet
  /-- The checks that precede an access. -/
  | checkBefore (access : Access)
  /-- The check that follows an access which produced the value. -/
  | checkAfter (access : Access)
deriving Repr

/-- What an operand contributes to an object under construction. -/
inductive Role where
  | parent
  | stepparent
  | payload
  | initializer
deriving DecidableEq, Repr

mutual

/-- Expressions. -/
inductive Expr where
  /-- The Null object. -/
  | null
  /-- The value of a variable. -/
  | var (name : String)
  | nullary (op : Nullary)
  | unary (op : Unary) (o : Expr)
  | binary (op : Binary) (a b : Expr)
  | ofKey (op : KeyQuery) (k : KeyExpr)
  | sameKey (j k : KeyExpr)
  | keyed (op : Keyed) (o : Expr) (k : KeyExpr)
  | keyedValue (op : KeyedValue) (o : Expr) (k : KeyExpr) (v : Expr)
  /-- Assigns a variable. -/
  | assign (name : String) (e : Expr)
  /-- Evaluates in order and keeps the last value. -/
  | block (es : List Expr)
  /-- Evaluates in order and keeps nothing. -/
  | quiet (es : List Expr)
  /-- Evaluates in order, that many times, and keeps nothing. -/
  | loop (n : Nat) (es : List Expr)
  /-- Evaluates one of two branches. -/
  | branch (condition yes no : Expr)
  /-- Hands a value out of the script. -/
  | emit (e : Expr)
  /-- Turns the outcome, an error or an escape included, into a structure. -/
  | observe (e : Expr)
  /-- Turns an escape into an error. -/
  | settle (e : Expr)
  /-- The sum of two numbers, as a new Number. -/
  | add (a b : Expr)
  /-- Whether one number is less than another. -/
  | less (a b : Expr)
  /-- The texts of the operands in a row, as a new Text. -/
  | concat (es : List Expr)
  /-- A new closure. -/
  | function (body : List Expr)
  /-- A new List. -/
  | list (es : List Expr)
  /-- A new Map. -/
  | map (entries : List (Expr × Expr))
  /-- A new object made of parts. -/
  | build (parts : List (Role × Expr))
  /-- Calls an attribute of an object. -/
  | send (o : Expr) (k : KeyExpr) (args : List Expr)
  /-- Calls the attribute above an object's own entry. -/
  | sendAbove (o : Expr) (k : KeyExpr) (args : List Expr)
  /-- Calls the attribute above the one that is running. -/
  | sendSuper (k : KeyExpr) (args : List Expr)
  /-- Calls a closure. -/
  | apply (f : Expr) (args : List Expr)
  /-- Runs a body inside a boundary whose marker is assigned to a variable. -/
  | attempt (name : String) (body : List Expr)

/-- Attribute keys, as expressions write them. -/
inductive KeyExpr where
  /-- The symbol of a name. -/
  | name (text : String)
  /-- An object, taken by its identity. -/
  | object (e : Expr)
  /-- A Text taken as a name, any other object by its identity. -/
  | ofValue (e : Expr)

end

instance : Inhabited Expr := ⟨.null⟩

end Prototypal
