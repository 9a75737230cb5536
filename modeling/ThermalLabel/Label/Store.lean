import ThermalLabel.Label.Objects

/-!
# Values and shared lists as objects

The objects of a label that is built by hand: values, which never change, and lists that are held in
several places.  A shared list lies in the store and is known by its number.  The sum that
`write_text_at_with_wrap` forms with `+=` extends it where it lies, so everyone who holds it has the
new items as well, a label with the list among its fragments not excepted.  The items are values:
a shared list within another one is left out.

The store also keeps what the loops over words tell the log.
-/
namespace ThermalLabel

inductive Handle where
  | value (v : Value)
  | shared (n : Nat)

structure Store where
  lists : List (List Value) := []
  notices : List Notice := []

namespace Value

def length : Value → Except Fault Nat
  | text s => .ok s.length
  | list items => .ok items.length
  | object fields => .ok fields.length
  | _ => .error .wrongType

/-- The sum as a value of its own, which a list has with other lists only. -/
def sum : Value → Value → Except Fault Value
  | list items, list others => .ok (.list (items ++ others))
  | list _, _ => .error .wrongType
  | v, w => v.add w

def item (n : Nat) : Value → Except Fault Value
  | list items => match items[n]? with
    | some v => .ok v
    | none => .error .wrongType
  | _ => .error .wrongType

end Value

namespace Token

/-- The token that a table has for a value. -/
def entry? (table : List String) (v : Value) : Option String :=
  (table.zipIdx.find? fun entry => v.isNumber entry.2).map (·.1)

end Token

namespace Store

/-- What a handle stands for as the store is now. -/
def see (w : Store) : Handle → Value
  | .value v => v
  | .shared n => .list (w.lists.getD n [])

def put (w : Store) (n : Nat) (items : List Value) : Store :=
  { w with lists := w.lists.set n items }

def tell (w : Store) (notices : List Notice) : Store :=
  { w with notices := w.notices ++ notices }

/-- The answer to a question that leaves the store alone. -/
def answer (w : Store) : (q : Question Handle) → Except Fault q.Reply
  | .text v => (w.see v).toText
  | .wording v => (w.see v).quoted
  | .truth v => .ok (w.see v).truthy
  | .is v m => (w.see v).is m
  | .entry table v => .ok (Token.entry? table (w.see v))
  | .whole v => do Value.integerText (← (w.see v).toInteger)
  | .length v => (w.see v).length
  | .atMost n limit => (w.see limit).limit.map fun fits => fits n
  | .exceeds v limit => (w.see v).exceeds (w.see limit)
  | .escaped v => (textOf (w.see v)).map fun s => .value (.text (Escape.encode s))
  | .stripped v => (textOf (w.see v)).map fun s => .value (.text (Text.strip s))
  | .words v => (textOf (w.see v)).map fun s => .value (.list ((Wrap.words s).map .text))
  | .item words n => ((w.see words).item n).map .value
  | .sum v v' => ((w.see v).sum (w.see v')).map .value
  | .extended v v' => ((w.see v).add (w.see v')).map .value
  | .difference v v' => ((w.see v).sub (w.see v')).map .value
  | .dots dpi inches => (ThermalLabel.dots (w.see dpi) (w.see inches)).map fun n =>
      .value (.integer n)
  | .notice .. => .ok ()

def ask (q : Question Handle) (s : Scene Store Handle) :
    Except Fault q.Reply × Scene Store Handle :=
  match q with
  | .extended (.shared n) v =>
    match (s.world.see (.shared n)).add (s.world.see v) with
    | .ok (.list items) => (.ok (.shared n), { s with world := s.world.put n items })
    | result => (result.map .value, s)
  | .notice lowest dropped =>
    (.ok (), { s with world := s.world.tell [⟨s.world.see lowest, dropped.toNat⟩] })
  | q => (s.world.answer q, s)

def objects : Objects Store Fault Handle where
  own := .value
  isNull
    | .value .null => true
    | _ => false
  ask
  misfit := .wrongType

end Store

end ThermalLabel
