import Aerobag.Receiver.Framing
import Mathlib.Data.List.Dedup

/-!
# What reassembly is for

The application records of a connection as its other end writes them: a control is passed on, and a
message consists of the records of its id since the last one that starts it.
-/

namespace List

/-- The end of the list from the last element on that satisfies the predicate. -/
def sinceLast {α : Type} (p : α → Bool) : List α → Option (List α)
  | [] => none
  | a :: rest =>
    match sinceLast p rest with
    | some found => some found
    | none => if p a then some (a :: rest) else none

end List

namespace Aerobag.Receiver

structure WireRecord where
  flags : UInt8
  id : UInt32
  body : Bytes
  fits : 8 + body.length ≤ 65535
deriving DecidableEq

namespace WireRecord

def encode (r : WireRecord) : Bytes :=
  [1] ++ leBytes 2 (8 + r.body.length) ++ [r.flags] ++ leBytes 4 r.id.toNat ++ r.body

def isControl (r : WireRecord) : Bool := r.flags &&& 2 ≠ 0

def isStart (r : WireRecord) : Bool := r.flags &&& 4 ≠ 0

def isEnd (r : WireRecord) : Bool := r.flags &&& 8 ≠ 0

def attributes (r : WireRecord) : UInt8 := r.flags &&& ~~~0x0e

end WireRecord

variable (history : List WireRecord)

def fragmentsOf (id : UInt32) : List WireRecord :=
  history.filter fun r => !r.isControl && r.id == id

def sinceStart (id : UInt32) : Option (List WireRecord) :=
  (fragmentsOf history id).sinceLast (·.isStart)

/-- The fragments of a message that has not ended. -/
def openMessage (id : UInt32) : Option (List WireRecord) :=
  (sinceStart history id).filter fun fragments => fragments.all (!·.isEnd)

def dataOf (fragments : List WireRecord) : Bytes := fragments.flatMap (·.body)

def attributesOf (fragments : List WireRecord) : UInt8 :=
  fragments.foldl (fun attributes r => attributes ||| r.attributes) 0

def openLength (id : UInt32) : Nat := (openMessage history id).elim 0 fun fragments =>
  (dataOf fragments).length

/-- The ids of the messages that have not ended, apart from one id. -/
def otherIds (id : UInt32) : List UInt32 :=
  (history.map (·.id)).dedup.filter fun other => other != id && (openMessage history other).isSome

/-- What is handed over with the record that follows the history. -/
def delivered (r : WireRecord) : List ApplicationRecord :=
  if r.isControl then [.control r.id r.body]
  else if r.isEnd then
    ((sinceStart (history ++ [r]) r.id).map fun fragments =>
      .message r.id (attributesOf fragments) (dataOf fragments)).toList
  else []

/-- Its message has started, and at most 64 messages of 32 MiB in all are open. -/
def Admits (r : WireRecord) : Prop :=
  r.isControl ∨
    (r.isStart ∨ (openMessage history r.id).isSome) ∧
    (otherIds history r.id).length + 1 ≤ maxAssemblies ∧
    ((otherIds history r.id).map (openLength history)).sum +
      (if r.isStart then 0 else openLength history r.id) + r.body.length ≤ maxProductBytes

instance (r : WireRecord) : Decidable (Admits history r) :=
  inferInstanceAs (Decidable (_ ∨ _ ∧ _ ∧ _))

/-- Every record may follow the ones before it. -/
def Admitted : List WireRecord → List WireRecord → Prop
  | _, [] => True
  | history, r :: rest => Admits history r ∧ Admitted (history ++ [r]) rest

instance instDecidableAdmitted : (history records : List WireRecord) → Decidable (Admitted history records)
  | _, [] => .isTrue trivial
  | history, r :: rest =>
    have := instDecidableAdmitted (history ++ [r]) rest
    inferInstanceAs (Decidable (_ ∧ _))

def deliveredAll : List WireRecord → List WireRecord → List ApplicationRecord
  | _, [] => []
  | history, r :: rest => delivered history r ++ deliveredAll (history ++ [r]) rest

end Aerobag.Receiver
