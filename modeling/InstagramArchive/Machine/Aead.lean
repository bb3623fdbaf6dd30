import Mathlib.Data.Set.Basic

/-!
# Authenticated encryption with associated data

The cipher is a pair of functions. It is ideal for the queries it was asked to encrypt when it
decrypts what they produced and nothing else, no nonce is drawn twice and no two queries produce
one ciphertext.
-/

namespace Machine

variable {κ : Type}

structure Aead (κ : Type) where
  /-- Key, nonce, associated data and message; `none` when the cipher refuses the message. -/
  encrypt : κ → List UInt8 → List UInt8 → List UInt8 → Option (List UInt8)
  decrypt : κ → List UInt8 → List UInt8 → List UInt8 → Option (List UInt8)

/-- What a cipher is asked to encrypt. -/
structure AeadQuery (κ : Type) where
  key : κ
  nonce : List UInt8
  associatedData : List UInt8
  message : List UInt8

/-- The ciphertext of a query. -/
def Aead.produces (aead : Aead κ) (q : AeadQuery κ) (ciphertext : List UInt8) : Prop :=
  aead.encrypt q.key q.nonce q.associatedData q.message = some ciphertext

/-- Idealised authenticated encryption with a tag of `tagLength` bytes. -/
structure Aead.Ideal (aead : Aead κ) (tagLength : Nat) (queries : Set (AeadQuery κ)) : Prop where
  length : ∀ q ∈ queries, ∀ c, aead.produces q c → c.length = q.message.length + tagLength
  opens : ∀ q ∈ queries, ∀ c, aead.produces q c →
    aead.decrypt q.key q.nonce q.associatedData c = some q.message
  authentic : ∀ key nonce associatedData c message,
    aead.decrypt key nonce associatedData c = some message →
      ∃ q ∈ queries, q.key = key ∧ q.nonce = nonce ∧ q.associatedData = associatedData ∧
        aead.produces q c
  freshNonce : ∀ q ∈ queries, ∀ q' ∈ queries, q.nonce = q'.nonce → q = q'
  distinct : ∀ q ∈ queries, ∀ q' ∈ queries, ∀ c, aead.produces q c → aead.produces q' c → q = q'

section Ideal

variable {aead : Aead κ} {tagLength : Nat} {queries : Set (AeadQuery κ)} {q : AeadQuery κ}
  {key : κ} {nonce associatedData c c' message : List UInt8}

/-- What decrypts under the nonce of a query is the ciphertext of that query, under its key and
its associated data. -/
theorem Aead.Ideal.of_nonce (h : aead.Ideal tagLength queries) (hq : q ∈ queries)
    (hc : aead.produces q c) (hnonce : nonce = q.nonce)
    (hd : aead.decrypt key nonce associatedData c' = some message) :
    key = q.key ∧ associatedData = q.associatedData ∧ c' = c := by
  obtain ⟨q', hq', rfl, rfl, rfl, hc'⟩ := h.authentic _ _ _ _ _ hd
  obtain rfl := h.freshNonce q' hq' q hq hnonce
  exact ⟨rfl, rfl, Option.some.inj (hc'.symm.trans hc)⟩

/-- The ciphertext of a query decrypts under its own key, nonce and associated data only. -/
theorem Aead.Ideal.of_ciphertext (h : aead.Ideal tagLength queries) (hq : q ∈ queries)
    (hc : aead.produces q c) (hd : aead.decrypt key nonce associatedData c = some message) :
    key = q.key ∧ nonce = q.nonce ∧ associatedData = q.associatedData := by
  obtain ⟨q', hq', rfl, rfl, rfl, hc'⟩ := h.authentic _ _ _ _ _ hd
  obtain rfl := h.distinct q' hq' q hq c hc' hc
  exact ⟨rfl, rfl, rfl⟩

end Ideal

end Machine
