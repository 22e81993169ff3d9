import Mathlib.Algebra.Group.Nat.Defs
import DnsRelay.Blocklist
import DnsRelay.Response
import DnsRelay.Proofs.Address

/-!
# What a blocklist blocks

`Network.Covers`, `Record.Holds` and `Blocklist.Lists` say bit for bit and octet for octet which addresses lie in a network, which
address a record holds, and which addresses a blocklist blocks. The last is a matter of which networks are listed, and not of how
often or in which order.
-/

namespace DnsRelay

namespace Address

/-- A run of octets stands for less than the next power of 256. -/
theorem numberOfOctets_lt (octets : List UInt8) : numberOfOctets octets < 256 ^ octets.length := by
  have hfold : ∀ n, octets.foldl (fun n b => n * 256 + b.toNat) n < (n + 1) * 256 ^ octets.length := by
    induction octets with
    | nil => simp
    | cons b octets ih =>
      intro n
      have hb := b.toNat_lt
      have hle : n * 256 + b.toNat + 1 ≤ (n + 1) * 256 := by omega
      calc (b :: octets).foldl (fun n b => n * 256 + b.toNat) n
        _ < (n * 256 + b.toNat + 1) * 256 ^ octets.length := ih _
        _ ≤ (n + 1) * 256 * 256 ^ octets.length := Nat.mul_le_mul_right _ hle
        _ = (n + 1) * 256 ^ (b :: octets).length := by rw [List.length_cons, Nat.pow_succ', Nat.mul_assoc]
  simpa [numberOfOctets] using hfold 0

end Address

namespace Record

/-- The address that a record holds: an internet record of one of the two address types does, if its data have the size of an
address, the highest octet first. -/
inductive Holds (x : Record) : Address → Prop where
  | v4 {bits : BitVec 32} : x.cls = RRClass.internet → x.type = RRType.a → x.data.length = 4 →
      bits.toNat = Address.numberOfOctets x.data → Holds x (.v4 bits)
  | v6 {bits : BitVec 128} : x.cls = RRClass.internet → x.type = RRType.aaaa → x.data.length = 16 →
      bits.toNat = Address.numberOfOctets x.data → Holds x (.v6 bits)

/-- The address of a record is the one that it holds. -/
theorem address?_eq_some_iff (x : Record) (a : Address) : x.address? = some a ↔ x.Holds a := by
  have hlt := Address.numberOfOctets_lt x.data
  rw [address?]
  constructor
  · intro h
    split at h
    · rename_i hx
      rcases hx with ⟨hcls, ⟨htype, hlen⟩ | ⟨htype, hlen⟩⟩
      · rw [Address.ofOctets?, hlen] at h
        cases h
        rw [hlen] at hlt
        exact .v4 hcls htype hlen (BitVec.toNat_ofNat _ _ |>.trans (Nat.mod_eq_of_lt hlt))
      · rw [Address.ofOctets?, hlen] at h
        cases h
        rw [hlen] at hlt
        exact .v6 hcls htype hlen (BitVec.toNat_ofNat _ _ |>.trans (Nat.mod_eq_of_lt hlt))
    · cases h
  · rintro (⟨hcls, htype, hlen, hbits⟩ | ⟨hcls, htype, hlen, hbits⟩)
    · rw [if_pos ⟨hcls, Or.inl ⟨htype, hlen⟩⟩, Address.ofOctets?, hlen, ← hbits]
      simp
    · rw [if_pos ⟨hcls, Or.inr ⟨htype, hlen⟩⟩, Address.ofOctets?, hlen, ← hbits]
      simp

end Record

namespace Network

/-- An address lies in a network of its own family iff their first bits agree, as many as the network fixes. -/
inductive Covers : Network → Address → Prop where
  | v4 {bits a : BitVec 32} {length : Fin 33} : (∀ i < length.val, bits.getMsbD i = a.getMsbD i) →
      Covers (.v4 bits length) (.v4 a)
  | v6 {bits a : BitVec 128} {length : Fin 129} : (∀ i < length.val, bits.getMsbD i = a.getMsbD i) →
      Covers (.v6 bits length) (.v6 a)

/-- Two words agree to some length iff their first bits are the same. -/
theorem agree_iff {w length : Nat} (h : length ≤ w) (a b : BitVec w) :
    agree length a b = true ↔ ∀ i < length, a.getMsbD i = b.getMsbD i := by
  rw [agree, beq_iff_eq]
  constructor
  · intro he i hi
    have hbit := congrArg (fun x : BitVec w => x.getMsbD (w - length + i)) he
    have hlt : w - length + i < w := by omega
    have hge : ¬w - length + i < w - length := by omega
    simpa [BitVec.getMsbD_ushiftRight, hlt, hge] using hbit
  · intro hbits
    refine BitVec.eq_of_getMsbD_eq fun i hi => ?_
    simp only [BitVec.getMsbD_ushiftRight]
    by_cases hlt : i < w - length
    · simp [hlt]
    · rw [hbits (i - (w - length)) (by omega)]

/-- A network contains the addresses that lie in it. -/
theorem contains_iff (network : Network) (a : Address) : network.contains a = true ↔ network.Covers a := by
  cases network with
  | v4 bits length =>
    cases a with
    | v4 a =>
      rw [contains, agree_iff (Nat.le_of_lt_succ length.isLt)]
      exact ⟨.v4, fun h => by cases h; assumption⟩
    | v6 a => exact ⟨nofun, nofun⟩
  | v6 bits length =>
    cases a with
    | v4 a => exact ⟨nofun, nofun⟩
    | v6 a =>
      rw [contains, agree_iff (Nat.le_of_lt_succ length.isLt)]
      exact ⟨.v6, fun h => by cases h; assumption⟩

/-- An address is under a network if it lies in it, or is the mapped form of one that does. -/
def Reaches (network : Network) (a : Address) : Prop :=
  network.Covers a ∨ ∃ inner, a = .v6 (Address.mapped inner) ∧ network.Covers (.v4 inner)

end Network

namespace Blocklist

/-- One of the networks listed reaches the address. -/
def Lists (b : Blocklist) (a : Address) : Prop :=
  ∃ network ∈ b.networks, network.Reaches a

/-- A network contains one of the forms of an address iff it reaches the address. -/
theorem any_forms_iff (network : Network) (a : Address) : (forms a).any network.contains = true ↔ network.Reaches a := by
  cases a with
  | v4 bits => simp [forms, Network.contains_iff, Network.Reaches]
  | v6 bits =>
    have hmapped : (∃ inner, Address.unmapped? bits = some inner ∧ network.contains (.v4 inner) = true) ↔
        ∃ inner, Address.v6 bits = .v6 (Address.mapped inner) ∧ network.Covers (.v4 inner) := by
      simp [Address.unmapped?_eq_some_iff, Network.contains_iff]
    rw [Network.Reaches, ← Network.contains_iff, ← hmapped, forms, List.any_cons, Bool.or_eq_true]
    cases Address.unmapped? bits with
    | none => simp
    | some inner => simp

/-- A blocklist blocks the addresses that it lists. -/
theorem blocks_iff (b : Blocklist) (a : Address) : b.blocks a = true ↔ b.Lists a := by
  rw [blocks, List.any_eq_true, Lists]
  simp only [any_forms_iff]

/-- An address that is not listed is not blocked. -/
theorem blocks_eq_false_iff (b : Blocklist) (a : Address) : b.blocks a = false ↔ ¬b.Lists a := by
  rw [← blocks_iff, Bool.not_eq_true]

end Blocklist

end DnsRelay
