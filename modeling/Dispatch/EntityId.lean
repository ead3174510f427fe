/-!
# Identifiers

Agents and targets, and the areas they stand in, are known by 32-bit numbers. The order of the
numbers serves only to list things in one fixed order.
-/

namespace Dispatch

/-- The number of an agent, a target or an area. -/
structure EntityId where
  val : UInt32
deriving DecidableEq, Repr, Inhabited

namespace EntityId

/-- The identifier of a number below `2 ^ 32`; larger ones are taken modulo `2 ^ 32`. -/
def ofNat (n : Nat) : EntityId := ⟨n.toUInt32⟩

def toNat (id : EntityId) : Nat := id.val.toNat

theorem toNat_lt (id : EntityId) : id.toNat < UInt32.size := UInt32.toNat_lt id.val

theorem toNat_inj {a b : EntityId} : a.toNat = b.toNat ↔ a = b := by
  cases a; cases b; simp [toNat, UInt32.toNat_inj]

instance : ToString EntityId := ⟨fun id => toString id.toNat⟩

end EntityId

/-- Numbers the values of a type, each with its own number. -/
class Ranked (κ : Type) where
  rank : κ → Nat
  rank_inj : ∀ {a b : κ}, rank a = rank b → a = b

export Ranked (rank rank_inj)

theorem rank_eq_iff {κ : Type} [Ranked κ] {a b : κ} : rank a = rank b ↔ a = b :=
  ⟨rank_inj, fun h => h ▸ rfl⟩

instance : Ranked EntityId := ⟨EntityId.toNat, EntityId.toNat_inj.1⟩

/-- Pairs are ranked by their first entry, then by their second. -/
instance : Ranked (EntityId × EntityId) where
  rank p := p.1.toNat * UInt32.size + p.2.toNat
  rank_inj {a b} h := by
    have ha := a.2.toNat_lt
    have hb := b.2.toNat_lt
    simp only [UInt32.size] at h ha hb
    exact Prod.ext (EntityId.toNat_inj.1 (by omega)) (EntityId.toNat_inj.1 (by omega))

end Dispatch
