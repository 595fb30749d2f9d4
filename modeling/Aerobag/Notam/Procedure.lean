import Aerobag.Lib.Except
import Aerobag.Lib.Text

/-!
# Procedure rendezvous keys (`product-contracts/src/lib.rs`)

The identity by which a NOTAM and a published procedure find each other, and the check that it is
canonical. `debug` is the `Debug` text of a string.
-/

namespace Aerobag.Notam

inductive ProcedureRendezvousKind where
  | departure
  | arrival
  | approach
  deriving DecidableEq, Repr

structure ProcedurePublishedName where
  name : String
  revision : Nat
  deriving DecidableEq, Repr

inductive ProcedureRendezvousIdentity where
  | cifpId (procedureId : String)
  | publishedName (published : ProcedurePublishedName)
  | takeoffMinimums
  deriving DecidableEq, Repr

structure ProcedureRendezvousKey where
  kind : ProcedureRendezvousKind
  identity : ProcedureRendezvousIdentity
  airportId : Option String
  deriving DecidableEq, Repr

def ProcedureRendezvousKind.index : ProcedureRendezvousKind → Nat
  | departure => 0
  | arrival => 1
  | approach => 2

namespace ProcedureRendezvousIdentity

def index : ProcedureRendezvousIdentity → Nat
  | cifpId _ => 0
  | publishedName _ => 1
  | takeoffMinimums => 2

def name : ProcedureRendezvousIdentity → String
  | cifpId procedureId => procedureId
  | publishedName published => published.name
  | takeoffMinimums => ""

def revision : ProcedureRendezvousIdentity → Nat
  | publishedName published => published.revision
  | _ => 0

end ProcedureRendezvousIdentity

namespace ProcedureRendezvousKey

/-- The derived order of the members and variants. -/
def order : ProcedureRendezvousKey → ProcedureRendezvousKey → Ordering :=
  compareLex (compareOn (·.kind.index)) (compareLex (compareOn (·.identity.index))
    (compareLex (compareOn (·.identity.name)) (compareLex (compareOn (·.identity.revision))
      (compareOn (·.airportId)))))

instance : Ord ProcedureRendezvousKey := ⟨order⟩

instance : Std.TransOrd ProcedureRendezvousKey := by
  change Std.TransCmp order
  unfold order
  infer_instance

theorem kind_index_injective : Function.Injective ProcedureRendezvousKind.index := by
  intro a b h
  cases a <;> cases b <;> simp_all [ProcedureRendezvousKind.index]

instance : Std.LawfulEqOrd ProcedureRendezvousKey where
  eq_of_compare {a b} h := by
    change order a b = .eq at h
    simp only [order, compareLex_eq_eq, compareOn, Std.LawfulEqCmp.compare_eq_iff_eq] at h
    obtain ⟨hkind, hindex, hname, hrevision, hairport⟩ := h
    obtain ⟨kind, identity, airportId⟩ := a
    obtain ⟨kind', identity', airportId'⟩ := b
    obtain rfl := kind_index_injective hkind
    obtain rfl : airportId = airportId' := hairport
    suffices hidentity : identity = identity' by rw [hidentity]
    cases identity with
    | cifpId _ => cases identity' <;> simp_all [ProcedureRendezvousIdentity.index,
        ProcedureRendezvousIdentity.name]
    | publishedName published =>
      cases identity' with
      | publishedName published' =>
        obtain ⟨name, revision⟩ := published
        obtain ⟨name', revision'⟩ := published'
        obtain rfl : name = name' := hname
        obtain rfl : revision = revision' := hrevision
        rfl
      | _ => simp [ProcedureRendezvousIdentity.index] at hindex
    | takeoffMinimums => cases identity' <;> simp_all [ProcedureRendezvousIdentity.index]

end ProcedureRendezvousKey

variable (debug : String → String)

def canonicalProcedureComponent (value label : String) : Except String String := do
  let value := Text.toAsciiUppercase (Text.trim value)
  .rejectIf value.isEmpty (label ++ " is empty")
  .rejectIf (¬ value.toList.all fun ch => ch.isAlphanum || ch == '-')
    (label ++ " " ++ debug value ++ " contains unsupported characters")
  return value

/-- An approach with one digit is written with two. -/
def canonicalProcedureId (kind : ProcedureRendezvousKind) (value : String) :
    Except String String := do
  let value ← canonicalProcedureComponent debug value "procedure ID"
  match kind, value.toList with
  | .approach, first :: second :: rest =>
    if first.isAlpha && ('1' ≤ second && second ≤ '9') &&
        !(rest.head?.any Char.isDigit) then
      return String.ofList (first :: '0' :: second :: rest)
    else return value
  | _, _ => return value

namespace ProcedurePublishedName

def canonicalName (self : ProcedurePublishedName) : String :=
  " ".intercalate ((Text.splitWhitespace self.name).map Text.toAsciiUppercase)

def validate (self : ProcedurePublishedName) : Except String Unit := do
  .rejectIf (self.revision = 0 ∨ 9 < self.revision)
    ("published procedure revision " ++ toString self.revision ++ " is outside 1..=9")
  .rejectIf (self.canonicalName.isEmpty ∨ self.canonicalName ≠ self.name ∨
      ¬ self.canonicalName.toList.all fun ch => ch.isAlphanum || ch == ' ')
    ("published procedure name " ++ debug self.name ++ " is not canonical")

end ProcedurePublishedName

namespace ProcedureRendezvousKey

def validateIdentity (self : ProcedureRendezvousKey) : Except String Unit :=
  match self.identity with
  | .cifpId procedureId => do
    let canonical ← canonicalProcedureId debug self.kind procedureId
    .rejectIf (canonical ≠ procedureId) ("procedure ID " ++ debug procedureId ++
      " is not canonical; expected " ++ debug canonical)
  | .publishedName published => do
    .rejectIf (self.kind = .approach)
      "approach rendezvous keys cannot use published-name identity"
    published.validate debug
  | .takeoffMinimums =>
    .rejectIf (self.kind ≠ .departure) "takeoff-minimums rendezvous keys must be departures"

def validateScope (self : ProcedureRendezvousKey) : Except String Unit :=
  match self.kind, self.airportId with
  | .arrival, none => .ok ()
  | .arrival, some _ => .error "arrival procedure rendezvous keys must use shared scope"
  | _, some airportId => do
    let canonical ← canonicalProcedureComponent debug airportId "airport ID"
    .rejectIf (canonical ≠ airportId) ("airport ID " ++ debug airportId ++
      " is not canonical; expected " ++ debug canonical)
  | _, none => .error "approach and departure procedure rendezvous keys require an airport"

def validate (self : ProcedureRendezvousKey) : Except String Unit := do
  self.validateIdentity debug
  self.validateScope debug

end ProcedureRendezvousKey

end Aerobag.Notam
