import Tollgate.Token.Identifier

/-! # Revoked tokens

The set of token identifiers that are no longer accepted.  It only grows.

* `RevokedSet.revoke` — one identifier, telling whether it is new;
* `RevokedSet.extend` — many, telling how many are new;
* `RevokedSet.isRevoked`, `RevokedSet.snapshot`, `RevokedSet.size` — looking at it;
* `RevokedSet.isRevoked_iff`, `RevokedSet.mem_revoke`, `RevokedSet.mem_extend` — what is in it.
-/

namespace Tollgate

structure RevokedSet where
  ids : List TokenId := []
  increasing : ids.Pairwise (· < ·) := by simp
  deriving DecidableEq, Repr

namespace RevokedSet

def empty : RevokedSet := {}

instance : Inhabited RevokedSet := ⟨.empty⟩

def isRevoked (r : RevokedSet) (id : TokenId) : Bool := Sorted.has id r.ids

/-- Revoke an identifier; tells whether it was not revoked before. -/
def revoke (r : RevokedSet) (id : TokenId) : Bool × RevokedSet :=
  (!r.isRevoked id, ⟨Sorted.add id r.ids, Sorted.pairwise_add r.increasing⟩)

/-- Revoke identifiers one after the other; tells how many were not revoked before. -/
def extend (r : RevokedSet) : List TokenId → Nat × RevokedSet
  | [] => (0, r)
  | id :: rest =>
    let (isNew, r) := r.revoke id
    let (count, r) := extend r rest
    (count + (if isNew then 1 else 0), r)

def snapshot (r : RevokedSet) : List TokenId := r.ids

def size (r : RevokedSet) : Nat := r.ids.length

/-! ## Membership -/

theorem isRevoked_iff {r : RevokedSet} {id : TokenId} : r.isRevoked id = true ↔ id ∈ r.ids :=
  Sorted.has_iff_mem r.increasing

theorem mem_revoke {r : RevokedSet} {id x : TokenId} :
    x ∈ (r.revoke id).2.ids ↔ x = id ∨ x ∈ r.ids :=
  Sorted.mem_add

theorem mem_extend {r : RevokedSet} {ids : List TokenId} {x : TokenId} :
    x ∈ (r.extend ids).2.ids ↔ x ∈ ids ∨ x ∈ r.ids := by
  induction ids generalizing r with
  | nil => simp [extend]
  | cons id rest ih =>
    simp only [extend, ih, mem_revoke, List.mem_cons]
    rw [or_left_comm, or_assoc]

end RevokedSet

end Tollgate
