import Prototypal.Graph.Heap
import Prototypal.Decimal.Shortest
import Prototypal.Json
import Prototypal.Text.Quoted

/-!
# Objects as seen from outside

A `View` is an object with its payload unfolded: the items of lists and maps are views
themselves.  Items are older than the object that carries them, so an object with identity `n` is
unfolded in at most `n + 1` levels.

Two notations are written from a view: `View.inspect`, for diagnosis, and `View.toJson`, for
answers.
-/

namespace Prototypal

/-- An object with its payload unfolded. -/
inductive View where
  | plain (id : ObjectId)
  | null (id : ObjectId)
  | boolean (id : ObjectId) (b : Bool)
  | number (id : ObjectId) (n : Float)
  | text (id : ObjectId) (s : String)
  | list (id : ObjectId) (items : List View)
  | map (id : ObjectId) (entries : List (View × View))
  | closure (id : ObjectId) (owner : Option ObjectId)
  | marker (id : ObjectId) (m : Marker)

namespace Heap

/-- Unfolds an object down to that many levels. -/
def unfold (h : Heap) : Nat → ObjectId → View
  | 0, o => .plain o
  | levels + 1, o =>
    match h.payload o with
    | .plain => .plain o
    | .null => .null o
    | .boolean b => .boolean o b
    | .number n => .number o n
    | .text s => .text o s
    | .list items => .list o (items.map (h.unfold levels))
    | .map entries => .map o (entries.map fun (k, v) => (h.unfold levels k, h.unfold levels v))
    | .closure c => .closure o c.owner
    | .marker m => .marker o m

/-- The view of an object. -/
def view (h : Heap) (o : ObjectId) : View :=
  h.unfold (o + 1) o

end Heap

/-- A closure with its receiver, in the notation for diagnosis. -/
def inspectClosure (owner : Option ObjectId) : String :=
  match owner with
  | some o => "Closure(bound to #" ++ toString o ++ ")"
  | none => "Closure(unbound)"

/-- The bits of a number in hexadecimal, in full width. -/
def bitsJson (n : Float) : Json :=
  let digits := Nat.toDigits 16 n.toBits.toNat
  .text ("0x" ++ String.ofList (List.replicate (16 - digits.length) '0' ++ digits))

/-- A number in answers: as such if it is whole and at most 2 ^ 53, up to which every whole number
is exact, and by its bits otherwise. -/
def numberJson (n : Float) : Json :=
  match Numeral.ofFloat n with
  | .notANumber => .text "nan"
  | .infinite negative => .text (if negative then "-inf" else "inf")
  | .finite negative x =>
    match x.whole? with
    | some 0 => if negative then .text "-0" else .int 0
    | some m => if m ≤ 9007199254740992 then .int (if negative then -m else m) else bitsJson n
    | none => bitsJson n

namespace View

mutual

/-- An object in the notation for diagnosis. -/
def inspect : View → String
  | plain id => "Object#" ++ toString id
  | null _ => "Null"
  | boolean _ b => if b then "Boolean(true)" else "Boolean(false)"
  | number _ n => "Number(" ++ (Numeral.ofFloat n).text ++ ")"
  | text _ s => "Text(" ++ Text.quote s ++ ")"
  | list _ items => "List([" ++ ", ".intercalate (inspectItems items) ++ "])"
  | map _ entries => "Map([" ++ ", ".intercalate (inspectEntries entries) ++ "])"
  | closure id owner => inspectClosure owner ++ "#" ++ toString id
  | marker _ m => "Marker(" ++ m.text ++ ")"

/-- The items of a list in the notation for diagnosis. -/
def inspectItems : List View → List String
  | [] => []
  | v :: vs => inspect v :: inspectItems vs

/-- The entries of a map in the notation for diagnosis. -/
def inspectEntries : List (View × View) → List String
  | [] => []
  | (k, v) :: es => ("(" ++ inspect k ++ ", " ++ inspect v ++ ")") :: inspectEntries es

end

/-- The fields that every object has in answers, followed by those of its kind. -/
def fields (id : ObjectId) (kind : Kind) (own : List (String × Json)) : Json :=
  .record (("id", .nat id) :: ("kind", .text kind.name) :: own)

mutual

/-- An object in answers. -/
def toJson : View → Json
  | plain id => fields id .plain []
  | null id => fields id .null []
  | boolean id b => fields id .boolean [("v", .bool b)]
  | number id n => fields id .number [("v", numberJson n)]
  | text id s => fields id .text [("v", .text s)]
  | list id items => fields id .list [("v", .array (toJsonItems items))]
  | map id entries => fields id .map [("v", .array (toJsonEntries entries))]
  | closure id owner => fields id .closure [("owner", .ofOption .nat owner)]
  | marker id m => fields id .marker [("marker", .text m.text)]

/-- The items of a list in answers. -/
def toJsonItems : List View → List Json
  | [] => []
  | v :: vs => toJson v :: toJsonItems vs

/-- The entries of a map in answers, each a pair. -/
def toJsonEntries : List (View × View) → List Json
  | [] => []
  | (k, v) :: es => .array [toJson k, toJson v] :: toJsonEntries es

end

end View

namespace Heap

/-- An object in the notation for diagnosis. -/
def inspect (h : Heap) (o : ObjectId) : String :=
  (h.view o).inspect

/-- An object in answers. -/
def picture (h : Heap) (o : ObjectId) : Json :=
  (h.view o).toJson

end Heap

end Prototypal
