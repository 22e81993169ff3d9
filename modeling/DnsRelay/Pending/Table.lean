import DnsRelay.Pending.Query

/-!
# The table of pending queries

Entries live in numbered slots. A slot that becomes free is taken again before older free ones, and a slot alone
therefore does not name an entry: a token also carries the serial number of the registration, which is never given out
again. Two indexes lead to the slots: one by id and server, which has at most one entry per key, and one by id alone,
which lists slots in the order of registration.
-/

namespace DnsRelay

/-- The name of one registration. Serial numbers are natural numbers: that numbers of 64 bits start again at zero behind
2 ^ 64 registrations, and then name a second one, is left out. -/
structure Token where
  index : Nat
  serial : Nat
  deriving DecidableEq, Repr

/-- Why a query cannot be registered. -/
inductive RegisterError where
  | duplicateId
  | full
  deriving DecidableEq, Repr

/-- The wording of a register error. -/
def RegisterError.message : RegisterError → String
  | .duplicateId => "transaction ID already pending for upstream"
  | .full => "pending query table is full"

/-- A pending query with what its sender attached to it. -/
structure PendingEntry (P : Type) where
  query : PendingQuery
  payload : P
  serial : Nat
  deriving DecidableEq, Repr

/-- Slots, of which the free ones are listed with the most recently freed first. They are a slab, as such containers are
documented: a value keeps the number of its slot until it is taken out, a vacant slot is filled before a new one is made,
and the slot vacated last is filled first. -/
structure Slots (α : Type) where
  cells : Array (Option α)
  free : List Nat
  deriving DecidableEq, Repr

namespace Slots

variable {α : Type}

/-- No slots. -/
def empty : Slots α := ⟨#[], []⟩

/-- What a slot holds. -/
def get? (s : Slots α) (i : Nat) : Option α :=
  (s.cells[i]?).join

/-- How many slots are taken. -/
def size (s : Slots α) : Nat :=
  s.cells.size - s.free.length

/-- Puts a value into the most recently freed slot, or into a new one. -/
def insert (s : Slots α) (x : α) : Nat × Slots α :=
  match s.free with
  | i :: free => (i, ⟨s.cells.setIfInBounds i (some x), free⟩)
  | [] => (s.cells.size, ⟨s.cells.push (some x), []⟩)

/-- Empties a slot. -/
def erase (s : Slots α) (i : Nat) : Slots α :=
  match s.get? i with
  | some _ => ⟨s.cells.setIfInBounds i none, i :: s.free⟩
  | none => s

/-- The slots that hold a value of which `p` is true, from the lowest on. -/
def indexesWhere (s : Slots α) (p : α → Bool) : List Nat :=
  (List.range s.cells.size).filter fun i => (s.get? i).any p

end Slots

/-- Entries in slots, the two indexes that lead to them, and the serial number of the next registration, which never starts
again at zero (see `Token`). -/
structure PendingTable (P : Type) where
  capacity : Nat
  entries : Slots (PendingEntry P)
  byKey : List ((UInt16 × Endpoint) × Nat)
  byId : List (UInt16 × List Nat)
  nextSerial : Nat
  deriving DecidableEq, Repr

namespace PendingTable

variable {P : Type}

/-- A table that holds up to `capacity` entries. -/
def empty (capacity : Nat) : PendingTable P :=
  { capacity, entries := .empty, byKey := [], byId := [], nextSerial := 0 }

/-- How many queries are pending. -/
def size (t : PendingTable P) : Nat :=
  t.entries.size

/-- Whether no query is pending. -/
def isEmpty (t : PendingTable P) : Bool :=
  t.size = 0

/-- The slots of an id in the order of registration. -/
def slotsOf (t : PendingTable P) (id : UInt16) : List Nat :=
  (t.byId.lookup id).getD []

/-- The index by id after `change` was made to the slots of one id; an id without slots is left out. -/
def updateSlots (byId : List (UInt16 × List Nat)) (id : UInt16) (change : List Nat → List Nat) :
    List (UInt16 × List Nat) :=
  let others := byId.filter (·.1 ≠ id)
  match change ((byId.lookup id).getD []) with
  | [] => others
  | slots => (id, slots) :: others

/-- Registers a query and what is attached to it, unless a query with this id is pending at the same server. -/
def register (t : PendingTable P) (query : PendingQuery) (payload : P) :
    Except RegisterError (Token × PendingTable P) :=
  let query := { query with server := query.server.canonical }
  let key := (query.id, query.server)
  if (t.byKey.lookup key).isSome then .error .duplicateId
  else if t.capacity ≤ t.size then .error .full
  else
    let serial := t.nextSerial
    let (index, entries) := t.entries.insert ⟨query, payload, serial⟩
    .ok (⟨index, serial⟩, {
      capacity := t.capacity
      entries
      byKey := (key, index) :: t.byKey
      byId := updateSlots t.byId query.id (· ++ [index])
      nextSerial := serial + 1 })

/-- The slot that a response with this id from this source belongs to: the one of its id and source, and otherwise the
oldest one of its id. -/
def slotFor? (t : PendingTable P) (id : UInt16) (source : Endpoint) : Option Nat :=
  (t.byKey.lookup (id, source.canonical)).or (t.slotsOf id).head?

/-- The query that a response with this id from this source claims to answer. -/
def lookup (t : PendingTable P) (id : UInt16) (source : Endpoint) : Option (Token × PendingQuery) := do
  let index ← t.slotFor? id source
  let entry ← t.entries.get? index
  return (⟨index, entry.serial⟩, entry.query)

/-- Takes the entry in a slot out of the table and its indexes. -/
def remove (t : PendingTable P) (index : Nat) : Option ((PendingQuery × P) × PendingTable P) :=
  (t.entries.get? index).map fun entry =>
    ((entry.query, entry.payload), { t with
      entries := t.entries.erase index
      byKey := t.byKey.filter (·.1 ≠ (entry.query.id, entry.query.server))
      byId := updateSlots t.byId entry.query.id (·.filter (· ≠ index)) })

/-- Takes out the entry of a token; a token whose entry is gone takes out nothing. -/
def clear (t : PendingTable P) (token : Token) : Option ((PendingQuery × P) × PendingTable P) :=
  match t.entries.get? token.index with
  | some entry => if entry.serial = token.serial then t.remove token.index else none
  | none => none

/-- Takes the entries in the given slots out, one after another. -/
def removeAll (t : PendingTable P) : List Nat → List (PendingQuery × P) × PendingTable P
  | [] => ([], t)
  | i :: is =>
    match t.remove i with
    | some (gone, t) => let (others, t) := t.removeAll is; (gone :: others, t)
    | none => t.removeAll is

/-- Takes out every entry that was sent at least `maxAge` before `now`, in the order of the slots. -/
def purge (t : PendingTable P) (now maxAge : Nat) : List (PendingQuery × P) × PendingTable P :=
  t.removeAll (t.entries.indexesWhere fun entry => maxAge ≤ now - entry.query.sentAt)

/-- The text of a table: its size and capacity. -/
def summary (t : PendingTable P) : String :=
  "Matcher \x7b len: " ++ Nat.repr t.size ++ ", capacity: " ++ Nat.repr t.capacity ++ " \x7d"

end PendingTable

end DnsRelay
