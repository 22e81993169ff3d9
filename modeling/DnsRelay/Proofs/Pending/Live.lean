import Mathlib.Data.List.Nodup
import DnsRelay.Proofs.Pending.Slots

/-!
# Pending queries in the order of registration

`PendingTable.live` lists what a table holds, the oldest registration first. `Represents t l` says that the slots and both
indexes of `t` tell the same story as the list `l`; one lemma for each operation says what it answers and which list it
leaves. A table that represents a list has it as its live registrations (`Represents.live_eq`).
-/

namespace DnsRelay

/-- A pending query in a table: the token of its registration, the query as it is kept, and what is attached to it. -/
structure Registration (P : Type) where
  token : Token
  query : PendingQuery
  payload : P
  deriving DecidableEq, Repr

namespace Registration

variable {P : Type}

/-- The id and the server under which a registration is found. -/
def key (r : Registration P) : UInt16 × Endpoint :=
  (r.query.id, r.query.server)

/-- A registration as the entry in its slot. -/
def entry (r : Registration P) : PendingEntry P :=
  ⟨r.query, r.payload, r.token.serial⟩

end Registration

/-- The registration that an entry in slot `i` stands for. -/
def PendingEntry.registration {P : Type} (e : PendingEntry P) (i : Nat) : Registration P :=
  ⟨⟨i, e.serial⟩, e.query, e.payload⟩

/-- Whether a query was sent at least `maxAge` before `now`. -/
def PendingQuery.expired (now maxAge : Nat) (q : PendingQuery) : Bool :=
  maxAge ≤ now - q.sentAt

namespace PendingTable

variable {P : Type}

/-- What the table holds, from the lowest slot on. -/
def registrations (t : PendingTable P) : List (Registration P) :=
  (List.range t.entries.cells.size).filterMap fun i => (t.entries.get? i).map (·.registration i)

/-- What the table holds, from the oldest registration on. -/
def live (t : PendingTable P) : List (Registration P) :=
  t.registrations.mergeSort fun a b => decide (a.token.serial ≤ b.token.serial)

/-- The slots and the indexes of a table hold the registrations of a list and nothing else; the list is in the order of
registration. -/
structure Represents (t : PendingTable P) (l : List (Registration P)) : Prop where
  lawful : t.entries.Lawful
  holds : ∀ i e, t.entries.get? i = some e ↔ e.registration i ∈ l
  size : t.size = l.length
  bounded : l.length ≤ t.capacity
  sorted : l.Pairwise fun a b => a.token.serial < b.token.serial
  fresh : ∀ r ∈ l, r.token.serial < t.nextSerial
  canonical : ∀ r ∈ l, r.query.server.canonical = r.query.server
  keys : l.Pairwise fun a b => a.key ≠ b.key
  byKey : ∀ key, t.byKey.lookup key = (l.find? (·.key = key)).map (·.token.index)
  byId : ∀ id, t.byId.lookup id = listed? ((l.filter (·.query.id = id)).map (·.token.index))

/-- An empty table represents the empty list. -/
theorem represents_empty (capacity : Nat) : (empty capacity : PendingTable P).Represents [] where
  lawful := Slots.lawful_empty
  holds := by
    intro i e
    simp [empty, Slots.empty, Slots.get?]
  size := rfl
  bounded := Nat.zero_le _
  sorted := List.Pairwise.nil
  fresh := by simp
  canonical := by simp
  keys := List.Pairwise.nil
  byKey := by simp [empty]
  byId := by simp [empty, listed?]

/-! ## Helpers: registrations of one list -/

namespace RepresentsAux

/-- In a list without two elements of the same kind, the one element of its kind is found. -/
theorem find?_eq_some {α : Type} {l : List α} {p : α → Bool} {x : α} (hx : x ∈ l) (hp : p x = true)
    (hu : ∀ y ∈ l, p y = true → y = x) : l.find? p = some x := by
  cases hf : l.find? p with
  | none => exact absurd hp (by simpa using List.find?_eq_none.1 hf x hx)
  | some y => rw [hu y (List.mem_of_find?_eq_some hf) (List.find?_some hf)]

/-- In a list whose elements differ pairwise under `f`, elements that agree under `f` are the same. -/
theorem eq_of_pairwise_ne {α β : Type} {l : List α} {f : α → β} (h : l.Pairwise fun a b => f a ≠ f b) {x y : α}
    (hx : x ∈ l) (hy : y ∈ l) (hxy : f x = f y) : x = y := by
  have hn : (l.map f).Nodup := List.pairwise_map.2 h
  exact List.inj_on_of_nodup_map hn hx hy hxy

end RepresentsAux

open RepresentsAux

namespace Represents

variable {t : PendingTable P} {l : List (Registration P)}

/-- A registration is in the list if its slot holds it. -/
theorem mem_iff (h : t.Represents l) (r : Registration P) : r ∈ l ↔ t.entries.get? r.token.index = some r.entry :=
  (h.holds r.token.index r.entry).symm

/-- A slot holds at most one registration. -/
theorem eq_of_index (h : t.Represents l) {a b : Registration P} (ha : a ∈ l) (hb : b ∈ l)
    (hab : a.token.index = b.token.index) : a = b := by
  have ea := (h.mem_iff a).1 ha
  have eb := (h.mem_iff b).1 hb
  rw [hab, eb] at ea
  obtain ⟨⟨i, n⟩, q, p⟩ := a
  obtain ⟨⟨j, k⟩, q', p'⟩ := b
  simp only [Registration.entry, Option.some.injEq, PendingEntry.mk.injEq] at ea hab
  obtain ⟨rfl, rfl, rfl⟩ := ea
  subst hab
  rfl

/-- A token names at most one registration. -/
theorem eq_of_token (h : t.Represents l) {a b : Registration P} (ha : a ∈ l) (hb : b ∈ l) (hab : a.token = b.token) :
    a = b :=
  h.eq_of_index ha hb (by rw [hab])

/-- A key names at most one registration. -/
theorem eq_of_key (h : t.Represents l) {a b : Registration P} (ha : a ∈ l) (hb : b ∈ l) (hab : a.key = b.key) : a = b :=
  eq_of_pairwise_ne h.keys ha hb hab

/-- A registration of the list is an entry in its slot. -/
theorem get?_of_mem (h : t.Represents l) {r : Registration P} (hr : r ∈ l) : t.entries.get? r.token.index = some r.entry :=
  (h.mem_iff r).1 hr

/-- A number is that of one registration at most. -/
theorem eq_of_serial (h : t.Represents l) {a b : Registration P} (ha : a ∈ l) (hb : b ∈ l)
    (hab : a.token.serial = b.token.serial) : a = b :=
  eq_of_pairwise_ne (h.sorted.imp Nat.ne_of_lt) ha hb hab

/-- No registration is listed twice. -/
theorem nodup (h : t.Represents l) : l.Nodup :=
  h.sorted.imp fun hab he => by rw [he] at hab; exact Nat.lt_irrefl _ hab

/-- The registration of a key is found by its key. -/
theorem find?_key (h : t.Represents l) {r : Registration P} (hr : r ∈ l) : l.find? (·.key = r.key) = some r :=
  find?_eq_some hr (by simp) fun y hy hk => h.eq_of_key hy hr (by simpa using hk)

/-- The slots of an id are those of the registrations with this id, in their order. -/
theorem slotsOf_eq (h : t.Represents l) (id : UInt16) :
    t.slotsOf id = (l.filter (·.query.id = id)).map (·.token.index) := by
  rw [slotsOf, h.byId id, getD_listed?]

/-! ## The list of a table -/

theorem mem_registrations (h : t.Represents l) (r : Registration P) : r ∈ t.registrations ↔ r ∈ l := by
  simp only [registrations, List.mem_filterMap, Option.map_eq_some_iff, List.mem_range]
  constructor
  · rintro ⟨i, -, e, he, rfl⟩
    exact (h.holds i e).1 he
  · intro hr
    have hg := (h.mem_iff r).1 hr
    exact ⟨r.token.index, Slots.lt_of_get? hg, r.entry, hg, rfl⟩

/-- The registrations of a table are listed from the lowest slot on. -/
theorem registrations_pairwise (t : PendingTable P) :
    t.registrations.Pairwise fun a b => a.token.index < b.token.index := by
  refine List.Pairwise.filterMap _ ?_ List.pairwise_lt_range
  intro i j hij a ha b hb
  obtain ⟨e, -, rfl⟩ := Option.map_eq_some_iff.1 ha
  obtain ⟨e', -, rfl⟩ := Option.map_eq_some_iff.1 hb
  exact hij

/-- The registrations of a table are those of the list, in another order. -/
theorem registrations_perm (h : t.Represents l) : t.registrations.Perm l := by
  have hn : t.registrations.Nodup :=
    (registrations_pairwise t).imp fun hab he => by rw [he] at hab; exact Nat.lt_irrefl _ hab
  exact (List.perm_ext_iff_of_nodup hn h.nodup).2 h.mem_registrations

/-- A table represents at most one list: its live registrations. -/
theorem live_eq (h : t.Represents l) : t.live = l := by
  have hp : t.live.Perm l := (List.mergeSort_perm _ _).trans h.registrations_perm
  have hs : t.live.Pairwise fun a b => decide (a.token.serial ≤ b.token.serial) = true := by
    refine List.pairwise_mergeSort ?_ ?_ _
    · intro a b c hab hbc
      simp only [decide_eq_true_eq] at hab hbc ⊢
      omega
    · intro a b
      simp only [Bool.or_eq_true, decide_eq_true_eq]
      omega
  refine hp.eq_of_pairwise ?_ hs (h.sorted.imp fun hab => by simpa using Nat.le_of_lt hab)
  intro a b ha hb hab hba
  simp only [decide_eq_true_eq] at hab hba
  exact h.eq_of_serial (hp.mem_iff.1 ha) hb (Nat.le_antisymm hab hba)

end Represents

end PendingTable

end DnsRelay
