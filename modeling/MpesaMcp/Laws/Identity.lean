import MpesaMcp.Library.Growth
import MpesaMcp.Storage.Repositories

/-!
# The identity of a stored transaction

`SameIdentity` compares two records of one transaction by the fields that no operation writes.
`RowsIssued` says that the identifiers of a store were drawn, so that a save, which draws a new one,
never meets the identifier of a stored transaction.
-/

set_option autoImplicit false

namespace MpesaMcp

open Library Python

/-- The fields of a transaction that never change. -/
structure SameIdentity (t u : PendingTransaction) : Prop where
  transactionId : u.transactionId = t.transactionId
  idempotencyKey : u.idempotencyKey = t.idempotencyKey
  provider : u.provider = t.provider
  rail : u.rail = t.rail
  providerTransactionId : u.providerTransactionId = t.providerTransactionId
  providerReference : u.providerReference = t.providerReference
  phoneNumber : u.phoneNumber = t.phoneNumber
  amount : u.amount = t.amount
  accountReference : u.accountReference = t.accountReference
  description : u.description = t.description
  checkoutRequestId : u.checkoutRequestId = t.checkoutRequestId
  merchantRequestId : u.merchantRequestId = t.merchantRequestId
  createdAt : u.createdAt = t.createdAt

namespace SameIdentity

theorem refl (t : PendingTransaction) : SameIdentity t t := by
  constructor <;> rfl

theorem trans {t u v : PendingTransaction} (h : SameIdentity t u) (h' : SameIdentity u v) :
    SameIdentity t v where
  transactionId := h'.transactionId.trans h.transactionId
  idempotencyKey := h'.idempotencyKey.trans h.idempotencyKey
  provider := h'.provider.trans h.provider
  rail := h'.rail.trans h.rail
  providerTransactionId := h'.providerTransactionId.trans h.providerTransactionId
  providerReference := h'.providerReference.trans h.providerReference
  phoneNumber := h'.phoneNumber.trans h.phoneNumber
  amount := h'.amount.trans h.amount
  accountReference := h'.accountReference.trans h.accountReference
  description := h'.description.trans h.description
  checkoutRequestId := h'.checkoutRequestId.trans h.checkoutRequestId
  merchantRequestId := h'.merchantRequestId.trans h.merchantRequestId
  createdAt := h'.createdAt.trans h.createdAt

/-- An update writes none of them. -/
theorem apply (args : UpdateTransactionStatus) (t : PendingTransaction) (status : TransactionStatus)
    (now : Datetime) : SameIdentity t (args.apply t status now) := by
  constructor <;> rfl

end SameIdentity

/-- Every row was stored under an identifier that was drawn. -/
def RowsIssued (env : Env) (a : Ambient) (rows : Transactions) : Prop :=
  ∀ t ∈ rows.values, ∃ n < a.uuidDraws, t.transactionId = env.uuid4 n

namespace RowsIssued

variable {env : Env} {a a' : Ambient} {rows rows' : Transactions}

theorem forward (h : RowsIssued env a rows) (forward : a.Forward a') : RowsIssued env a' rows := by
  intro t ht
  obtain ⟨n, hn, hid⟩ := h t ht
  exact ⟨n, Nat.lt_of_lt_of_le hn forward.uuidDraws, hid⟩

/-- Rows that change in place keep their identifiers. -/
theorem paired {R : PendingTransaction → PendingTransaction → Prop}
    (sameId : ∀ t u, R t u → u.transactionId = t.transactionId) (h : RowsIssued env a rows)
    (paired : rows.Paired R rows') : RowsIssued env a rows' := by
  intro u hu
  obtain ⟨t, ht, htu⟩ := (forall₂_mem paired).2 u hu
  obtain ⟨n, hn, hid⟩ := h t ht
  exact ⟨n, hn, (sameId t u htu).trans hid⟩

/-- An identifier that is still to be drawn is not stored. -/
theorem fresh (h : RowsIssued env a rows) {k : Nat} (hk : a.uuidDraws ≤ k) :
    rows.get (env.uuid4 k) = none := by
  refine Keyed.get_eq_none_iff.mpr fun t ht hid => ?_
  obtain ⟨n, hn, hid'⟩ := h t ht
  have hsame := env.uuid4_injective (hid'.symm.trans hid)
  omega

/-- A row under an identifier drawn since is stored beside the others. -/
theorem put (h : RowsIssued env a rows) {k : Nat} (drawn : a.uuidDraws ≤ k ∧ k < a'.uuidDraws)
    (args : SavePendingTransaction) (createdAt updatedAt : Datetime) :
    RowsIssued env a' (rows.put (args.record (env.uuid4 k) createdAt updatedAt)) := by
  intro t ht
  rcases Keyed.mem_values_put.mp ht with rfl | ⟨ht, -⟩
  · exact ⟨k, drawn.2, rfl⟩
  · obtain ⟨n, hn, hid⟩ := h t ht
    exact ⟨n, by omega, hid⟩

end RowsIssued

end MpesaMcp
