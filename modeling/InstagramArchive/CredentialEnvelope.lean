import InstagramArchive.Machine.Aead
import InstagramArchive.Machine.BigEndian
import InstagramArchive.Machine.Unsigned

/-!
# Credential envelopes

An envelope is a format byte, the version of the key, a nonce and a ciphertext. Only the nonce and
the ciphertext are under the cipher's authentication; the version selects the key that has to fit.
-/

namespace InstagramArchive.Credentials

open Machine

/-! ## Layout -/

/-- AES-256 key length. -/
def KEY_LEN : Nat := 32

def FORMAT_VERSION : UInt8 := 1

def NONCE_LEN : Nat := 12

def TAG_LEN : Nat := 16

def HEADER_LEN : Nat := 1 + 4 + NONCE_LEN

/-- `ratatoskr.instagram.credential.v1` and a zero byte. -/
def DOMAIN : List UInt8 := "ratatoskr.instagram.credential.v1".toUTF8.data.toList ++ [0]

/-- The semantic kind bound into an encrypted envelope. -/
inductive TokenKind where
  | access
  | refresh
  | pkceVerifier
  deriving DecidableEq, Repr

/-- The database subject and semantic kind authenticated with the ciphertext. -/
structure TokenBinding where
  subjectId : BitVec 128
  kind : TokenKind
  deriving DecidableEq, Repr

inductive CryptoError where
  | unknownKeyVersion
  | malformedEnvelope
  | authenticationFailed
  deriving DecidableEq, Repr

abbrev KeyBytes := { bytes : List UInt8 // bytes.length = KEY_LEN }

abbrev NonceBytes := { bytes : List UInt8 // bytes.length = NONCE_LEN }

/-- Validated version-to-key mapping with one current write version. -/
structure CredentialKeyring where
  currentVersion : U32
  keys : U32 → Option KeyBytes
  current : (keys currentVersion).isSome

/-- Constructs a keyring when the current write version is present. -/
def CredentialKeyring.new (currentVersion : U32) (keys : U32 → Option KeyBytes) :
    Except CryptoError CredentialKeyring :=
  if current : (keys currentVersion).isSome then .ok ⟨currentVersion, keys, current⟩
  else .error .unknownKeyVersion

def TokenKind.byte : TokenKind → UInt8
  | .access => 1
  | .refresh => 2
  | .pkceVerifier => 3

def associatedData (binding : TokenBinding) : List UInt8 :=
  DOMAIN ++ beBytes 16 binding.subjectId.toNat ++ [binding.kind.byte]

/-- The bytes of an envelope. -/
def envelopeBytes (version : U32) (nonce ciphertext : List UInt8) : List UInt8 :=
  FORMAT_VERSION :: beBytes 4 version.toNat ++ nonce ++ ciphertext

/-! ## Sealing and opening -/

/-- The bytes of a text. -/
def utf8 (text : String) : List UInt8 := text.toUTF8.data.toList

/-- `String::from_utf8`. -/
def fromUtf8 (bytes : List UInt8) : Option String := String.fromUTF8? ⟨bytes.toArray⟩

/-- Seals a secret using the current key and binding, under the nonce that was drawn. -/
def CredentialKeyring.seal (aes : Aead KeyBytes) (keyring : CredentialKeyring) (nonce : NonceBytes)
    (binding : TokenBinding) (plaintext : String) : Except CryptoError (List UInt8) :=
  match keyring.keys keyring.currentVersion with
  | none => .error .unknownKeyVersion
  | some key =>
    match aes.encrypt key nonce.1 (associatedData binding) (utf8 plaintext) with
    | none => .error .authenticationFailed
    | some ciphertext => .ok (envelopeBytes keyring.currentVersion nonce.1 ciphertext)

/-- `split_first_chunk`. -/
def splitFirstChunk (n : Nat) (bytes : List UInt8) : Option (List UInt8 × List UInt8) :=
  if n ≤ bytes.length then some (bytes.take n, bytes.drop n) else none

/-- Authenticates and opens an envelope using its recorded key version. -/
def CredentialKeyring.openEnvelope (aes : Aead KeyBytes) (keyring : CredentialKeyring)
    (binding : TokenBinding) (envelope : List UInt8) : Except CryptoError String :=
  if envelope.length < HEADER_LEN + TAG_LEN then .error .malformedEnvelope
  else
    match envelope with
    | [] => .error .malformedEnvelope
    | formatVersion :: versionAndRest =>
      if formatVersion ≠ FORMAT_VERSION then .error .malformedEnvelope
      else
        match splitFirstChunk 4 versionAndRest with
        | none => .error .malformedEnvelope
        | some (versionBytes, rest) =>
          match keyring.keys (BitVec.ofNat 32 (ofBeBytes versionBytes)) with
          | none => .error .unknownKeyVersion
          | some key =>
            match splitFirstChunk NONCE_LEN rest with
            | none => .error .malformedEnvelope
            | some (nonceBytes, ciphertext) =>
              match aes.decrypt key nonceBytes (associatedData binding) ciphertext with
              | none => .error .authenticationFailed
              | some plaintext =>
                match fromUtf8 plaintext with
                | none => .error .malformedEnvelope
                | some text => .ok text

/-! ## What the bytes determine -/

section Bytes

theorem fromUtf8_utf8 (text : String) : fromUtf8 (utf8 text) = some text := by
  have hbytes : (⟨(utf8 text).toArray⟩ : ByteArray) = text.toByteArray := by
    unfold utf8
    rw [String.toUTF8_eq_toByteArray, Array.toArray_toList]
  unfold fromUtf8 String.fromUTF8?
  rw [hbytes, dif_pos text.isValidUTF8]
  rfl

theorem splitFirstChunk_eq_some {n : Nat} {bytes first rest : List UInt8} :
    splitFirstChunk n bytes = some (first, rest) ↔ bytes = first ++ rest ∧ first.length = n := by
  unfold splitFirstChunk
  constructor
  · intro h
    split at h
    · rename_i hle
      cases h
      exact ⟨(List.take_append_drop n bytes).symm, List.length_take_of_le hle⟩
    · cases h
  · rintro ⟨rfl, rfl⟩
    rw [if_pos (by simp), List.take_left', List.drop_left']
    · rfl
    · rfl

theorem TokenKind.byte_inj {kind kind' : TokenKind} (h : kind.byte = kind'.byte) : kind = kind' := by
  cases kind <;> cases kind' <;> first | rfl | cases h

/-- The associated data tells bindings apart. -/
theorem associatedData_inj {b b' : TokenBinding} (h : associatedData b = associatedData b') :
    b = b' := by
  unfold associatedData at h
  obtain ⟨hfront, hkind⟩ := List.append_inj h (by simp [beBytes_length])
  obtain ⟨-, hsubject⟩ := List.append_inj hfront rfl
  have hvalue := beBytes_inj b.subjectId.isLt b'.subjectId.isLt hsubject
  have hkinds := TokenKind.byte_inj (List.singleton_inj.mp hkind)
  obtain ⟨subjectId, kind⟩ := b
  obtain ⟨subjectId', kind'⟩ := b'
  rw [TokenBinding.mk.injEq]
  exact ⟨BitVec.eq_of_toNat_eq hvalue, hkinds⟩

theorem envelopeBytes_length (version : U32) (nonce ciphertext : List UInt8) :
    (envelopeBytes version nonce ciphertext).length = 5 + nonce.length + ciphertext.length := by
  simp only [envelopeBytes, List.length_append, List.length_cons, beBytes_length]

theorem versionBytes_inj {version version' : U32}
    (h : beBytes 4 version.toNat = beBytes 4 version'.toNat) : version = version' :=
  BitVec.eq_of_toNat_eq (beBytes_inj version.isLt version'.isLt h)

/-- An envelope tells its version, its nonce and its ciphertext. -/
theorem envelopeBytes_inj {version version' : U32} {nonce nonce' c c' : List UInt8}
    (hnonce : nonce.length = nonce'.length)
    (h : envelopeBytes version nonce c = envelopeBytes version' nonce' c') :
    version = version' ∧ nonce = nonce' ∧ c = c' := by
  unfold envelopeBytes at h
  obtain ⟨hhead, hc⟩ := List.append_inj h (by simp [beBytes_length, hnonce])
  obtain ⟨hversion, hnonces⟩ := List.append_inj hhead (by simp [beBytes_length])
  exact ⟨versionBytes_inj (List.cons_inj_right _ |>.mp hversion), hnonces, hc⟩

end Bytes

/-! ## What opening decides -/

section Opening

variable {aes : Aead KeyBytes} {keyring : CredentialKeyring} {binding : TokenBinding}

/-- **What an envelope that opens is.** Its recorded version is configured, and the ciphertext
decrypts under that key, the recorded nonce and the binding to the bytes of the text. -/
theorem openEnvelope_ok {envelope : List UInt8} {text : String}
    (h : keyring.openEnvelope aes binding envelope = .ok text) :
    ∃ version nonce ciphertext key plaintext, envelope = envelopeBytes version nonce ciphertext ∧
      nonce.length = NONCE_LEN ∧ keyring.keys version = some key ∧
      aes.decrypt key nonce (associatedData binding) ciphertext = some plaintext ∧
      fromUtf8 plaintext = some text := by
  unfold CredentialKeyring.openEnvelope at h
  split at h
  · cases h
  split at h
  · cases h
  rename_i formatVersion versionAndRest _
  split at h
  · cases h
  rename_i hformat
  rw [not_not] at hformat
  split at h
  · cases h
  rename_i versionBytes rest hversion
  obtain ⟨rfl, hversionLength⟩ := splitFirstChunk_eq_some.mp hversion
  split at h
  · cases h
  rename_i key hkey
  split at h
  · cases h
  rename_i nonce ciphertext hnonce
  obtain ⟨rfl, hnonceLength⟩ := splitFirstChunk_eq_some.mp hnonce
  split at h
  · cases h
  rename_i plaintext hplaintext
  split at h
  · cases h
  rename_i text' htext
  cases h
  refine ⟨_, nonce, ciphertext, key, plaintext, ?_, hnonceLength, hkey, hplaintext, htext⟩
  have hvalue : ofBeBytes versionBytes < 2 ^ 32 := by
    have hlt := ofBeBytes_lt versionBytes
    rw [hversionLength] at hlt
    exact hlt
  have hbytes : beBytes 4 (ofBeBytes versionBytes) = versionBytes := by
    rw [← hversionLength]
    exact beBytes_ofBeBytes versionBytes
  unfold envelopeBytes
  rw [BitVec.toNat_ofNat, Nat.mod_eq_of_lt hvalue, hbytes, hformat]
  simp

/-- A whole envelope that decrypts opens. -/
theorem openEnvelope_envelopeBytes {version : U32} {nonce ciphertext plaintext : List UInt8}
    {key : KeyBytes} {text : String} (hnonce : nonce.length = NONCE_LEN)
    (htag : TAG_LEN ≤ ciphertext.length) (hkey : keyring.keys version = some key)
    (hdecrypt : aes.decrypt key nonce (associatedData binding) ciphertext = some plaintext)
    (htext : fromUtf8 plaintext = some text) :
    keyring.openEnvelope aes binding (envelopeBytes version nonce ciphertext) = .ok text := by
  have hlong : ¬ (envelopeBytes version nonce ciphertext).length < HEADER_LEN + TAG_LEN := by
    rw [envelopeBytes_length]
    unfold HEADER_LEN
    omega
  have hversion : splitFirstChunk 4 (beBytes 4 version.toNat ++ nonce ++ ciphertext) =
      some (beBytes 4 version.toNat, nonce ++ ciphertext) :=
    splitFirstChunk_eq_some.mpr ⟨List.append_assoc .., beBytes_length ..⟩
  have hrest : splitFirstChunk NONCE_LEN (nonce ++ ciphertext) = some (nonce, ciphertext) :=
    splitFirstChunk_eq_some.mpr ⟨rfl, hnonce⟩
  have hvalue : BitVec.ofNat 32 (ofBeBytes (beBytes 4 version.toNat)) = version := by
    have hlt : version.toNat < 256 ^ 4 := version.isLt
    rw [ofBeBytes_beBytes, Nat.mod_eq_of_lt hlt]
    exact BitVec.eq_of_toNat_eq (by simp)
  unfold CredentialKeyring.openEnvelope
  rw [if_neg hlong]
  unfold envelopeBytes
  simp only [List.cons_append, ne_eq, not_true_eq_false, if_false, hversion, hvalue, hkey, hrest,
    hdecrypt, htext]

/-! ## Damage and substitution -/

/-- `b` differs from `a` in exactly one byte. -/
def OneByteOff (a b : List UInt8) : Prop :=
  ∃ before old new after, a = before ++ old :: after ∧ b = before ++ new :: after ∧ new ≠ old

theorem OneByteOff.ne {a b : List UInt8} (h : OneByteOff a b) : a ≠ b := by
  obtain ⟨before, old, new, after, rfl, rfl, hne⟩ := h
  intro heq
  rw [List.append_cancel_left_eq, List.cons.injEq] at heq
  exact hne heq.1.symm

/-- A changed byte is in the first part or in the second. -/
theorem OneByteOff.append {a b c d : List UInt8} (hlength : a.length = c.length)
    (h : OneByteOff (a ++ b) (c ++ d)) : a = c ∧ OneByteOff b d ∨ OneByteOff a c ∧ b = d := by
  obtain ⟨before, old, new, after, hab, hcd, hne⟩ := h
  rcases List.append_eq_append_iff.mp hab with ⟨mid, rfl, rfl⟩ | ⟨mid, rfl, hmid⟩
  · rw [List.append_assoc] at hcd
    obtain ⟨rfl, rfl⟩ := List.append_inj hcd hlength.symm
    exact Or.inl ⟨rfl, mid, old, new, after, rfl, rfl, hne⟩
  · cases mid with
    | nil =>
      rw [List.append_nil] at hlength
      obtain ⟨rfl, rfl⟩ := List.append_inj hcd hlength.symm
      exact Or.inl ⟨List.append_nil _, [], old, new, after, hmid.symm, rfl, hne⟩
    | cons first mid =>
      rw [List.cons_append, List.cons.injEq] at hmid
      obtain ⟨rfl, rfl⟩ := hmid
      have hsplit : c ++ d = (before ++ new :: mid) ++ b := by
        rw [hcd, List.append_assoc, List.cons_append]
      obtain ⟨rfl, rfl⟩ := List.append_inj hsplit (by simpa using hlength.symm)
      exact Or.inr ⟨⟨before, old, new, mid, rfl, rfl, hne⟩, rfl⟩

/-- Exactly one part of an envelope is damaged. -/
theorem OneByteOff.envelopeBytes {version version' : U32} {nonce nonce' c c' : List UInt8}
    (hnonce : nonce.length = nonce'.length)
    (h : OneByteOff (Credentials.envelopeBytes version nonce c)
      (Credentials.envelopeBytes version' nonce' c')) :
    version ≠ version' ∧ nonce = nonce' ∧ c = c' ∨
      version = version' ∧ nonce ≠ nonce' ∧ c = c' ∨
      version = version' ∧ nonce = nonce' ∧ c ≠ c' := by
  unfold Credentials.envelopeBytes at h
  have hversion : (beBytes 4 version.toNat).length = (beBytes 4 version'.toNat).length := by
    rw [beBytes_length, beBytes_length]
  rcases h.append (by simp [hversion, hnonce]) with ⟨hhead, hoff⟩ | ⟨hoff, rfl⟩
  · obtain ⟨hversions, rfl⟩ := List.append_inj hhead (by simp [hversion])
    exact Or.inr (Or.inr ⟨versionBytes_inj (List.cons_inj_right _ |>.mp hversions), rfl, hoff.ne⟩)
  · rcases hoff.append (by simp [hversion]) with ⟨hversions, hoff⟩ | ⟨hoff, rfl⟩
    · exact Or.inr (Or.inl
        ⟨versionBytes_inj (List.cons_inj_right _ |>.mp hversions), hoff.ne, rfl⟩)
    · refine Or.inl ⟨?_, rfl, rfl⟩
      rintro rfl
      exact hoff.ne rfl

end Opening

/-! ## The envelope law -/

/-- What a sealing asks the cipher. -/
def CredentialKeyring.query (keyring : CredentialKeyring) (nonce : NonceBytes)
    (binding : TokenBinding) (plaintext : String) : AeadQuery KeyBytes where
  key := (keyring.keys keyring.currentVersion).get keyring.current
  nonce := nonce.1
  associatedData := associatedData binding
  message := utf8 plaintext

section Law

variable {aes : Aead KeyBytes} {queries : Set (AeadQuery KeyBytes)} {keyring : CredentialKeyring}
  {nonce : NonceBytes} {binding : TokenBinding} {plaintext : String} {envelope : List UInt8}

theorem seal_ok (h : keyring.seal aes nonce binding plaintext = .ok envelope) :
    ∃ ciphertext, aes.produces (keyring.query nonce binding plaintext) ciphertext ∧
      keyring.keys keyring.currentVersion = some (keyring.query nonce binding plaintext).key ∧
      envelope = envelopeBytes keyring.currentVersion nonce.1 ciphertext := by
  unfold CredentialKeyring.seal at h
  split at h
  · cases h
  rename_i key hkey
  have hget : (keyring.query nonce binding plaintext).key = key := by
    simp [CredentialKeyring.query, hkey]
  split at h
  · cases h
  rename_i ciphertext hciphertext
  cases h
  refine ⟨ciphertext, ?_, by rw [hkey, hget], rfl⟩
  unfold Aead.produces
  rw [hget]
  exact hciphertext

/-- **Envelopes open exactly as sealed.** Whatever else was sealed, and whatever keyring opens it:
a keyring with the sealing key under the sealing version opens the envelope to the secret; another
binding, a keyring without that key, a proper prefix and a changed byte are refused, unless the
byte names another version with the same key. -/
theorem envelopes_open_as_sealed (hideal : aes.Ideal TAG_LEN queries)
    (hquery : keyring.query nonce binding plaintext ∈ queries)
    (hseal : keyring.seal aes nonce binding plaintext = .ok envelope) (opener : CredentialKeyring) :
    (opener.keys keyring.currentVersion = keyring.keys keyring.currentVersion →
      opener.openEnvelope aes binding envelope = .ok plaintext) ∧
    (∀ other ≠ binding, ∀ text, opener.openEnvelope aes other envelope ≠ .ok text) ∧
    (opener.keys keyring.currentVersion ≠ keyring.keys keyring.currentVersion →
      ∀ other text, opener.openEnvelope aes other envelope ≠ .ok text) ∧
    (∀ damaged, damaged <+: envelope → damaged ≠ envelope →
      ∀ other text, opener.openEnvelope aes other damaged ≠ .ok text) ∧
    ∀ damaged, OneByteOff envelope damaged →
      ∀ other text, opener.openEnvelope aes other damaged = .ok text →
        ∃ version ciphertext, envelope = envelopeBytes keyring.currentVersion nonce.1 ciphertext ∧
          damaged = envelopeBytes version nonce.1 ciphertext ∧ version ≠ keyring.currentVersion ∧
          opener.keys version = keyring.keys keyring.currentVersion := by
  obtain ⟨c, hc, hkey, rfl⟩ := seal_ok hseal
  refine ⟨?_, ?_, ?_, ?_, ?_⟩
  · intro hsame
    have htag : TAG_LEN ≤ c.length := by
      rw [hideal.length _ hquery c hc]
      exact Nat.le_add_left ..
    exact openEnvelope_envelopeBytes nonce.2 htag (hsame.trans hkey) (hideal.opens _ hquery c hc)
      (fromUtf8_utf8 plaintext)
  · intro other hother text h
    obtain ⟨version, nonce', c', key, message, hbytes, hnonce, -, hdecrypt, -⟩ := openEnvelope_ok h
    obtain ⟨rfl, rfl, rfl⟩ := envelopeBytes_inj (nonce.2.trans hnonce.symm) hbytes
    exact hother (associatedData_inj (hideal.of_nonce hquery hc rfl hdecrypt).2.1)
  · intro hkeys other text h
    obtain ⟨version, nonce', c', key, message, hbytes, hnonce, hopener, hdecrypt, -⟩ :=
      openEnvelope_ok h
    obtain ⟨rfl, rfl, rfl⟩ := envelopeBytes_inj (nonce.2.trans hnonce.symm) hbytes
    rw [(hideal.of_nonce hquery hc rfl hdecrypt).1] at hopener
    exact hkeys (hopener.trans hkey.symm)
  · rintro damaged ⟨rest, hrest⟩ hne other text h
    obtain ⟨version, nonce', c', key, message, rfl, hnonce, -, hdecrypt, -⟩ := openEnvelope_ok h
    have hwhole : envelopeBytes version nonce' (c' ++ rest) =
        envelopeBytes keyring.currentVersion nonce.1 c := by
      rw [← hrest]
      unfold envelopeBytes
      rw [List.append_assoc _ c' rest]
    obtain ⟨rfl, rfl, hcut⟩ := envelopeBytes_inj (hnonce.trans nonce.2.symm) hwhole
    exact hne (by rw [(hideal.of_nonce hquery hc rfl hdecrypt).2.2])
  · intro damaged hoff other text h
    obtain ⟨version, nonce', c', key, message, rfl, hnonce, hopener, hdecrypt, -⟩ :=
      openEnvelope_ok h
    rcases OneByteOff.envelopeBytes (nonce.2.trans hnonce.symm) hoff with
      ⟨hversion, rfl, rfl⟩ | ⟨-, hchanged, rfl⟩ | ⟨-, rfl, hchanged⟩
    · rw [(hideal.of_nonce hquery hc rfl hdecrypt).1] at hopener
      exact ⟨version, c, rfl, rfl, hversion.symm, hopener.trans hkey.symm⟩
    · exact absurd (hideal.of_ciphertext hquery hc hdecrypt).2.1.symm hchanged
    · exact absurd (hideal.of_nonce hquery hc rfl hdecrypt).2.2.symm hchanged

/-! ### A rotated keyring -/

/-- A cipher that was asked one query: its tag is zero, and it decrypts what it produced. -/
def tableCipher (q : AeadQuery KeyBytes) : Aead KeyBytes where
  encrypt _ _ _ message := some (message ++ List.replicate TAG_LEN 0)
  decrypt key nonce associatedData c :=
    if key = q.key ∧ nonce = q.nonce ∧ associatedData = q.associatedData ∧
        c = q.message ++ List.replicate TAG_LEN 0 then some q.message
    else none

theorem tableCipher_ideal (q : AeadQuery KeyBytes) : (tableCipher q).Ideal TAG_LEN {q} where
  length := by
    rintro _ rfl c hc
    cases hc
    simp
  opens := by
    rintro _ rfl c hc
    cases hc
    simp [tableCipher]
  authentic := by
    intro key nonce associatedData c message h
    simp only [tableCipher] at h
    split at h
    · rename_i htuple
      obtain ⟨rfl, rfl, rfl, rfl⟩ := htuple
      exact ⟨q, rfl, rfl, rfl, rfl, rfl⟩
    · cases h
  freshNonce := by
    rintro _ rfl _ rfl -
    rfl
  distinct := by
    rintro _ rfl _ rfl c - -
    rfl

def testKey (byte : UInt8) : KeyBytes := ⟨List.replicate KEY_LEN byte, List.length_replicate⟩

def testNonce : NonceBytes := ⟨List.replicate NONCE_LEN 5, List.length_replicate⟩

def testBinding (kind : TokenKind) : TokenBinding := ⟨0x018f1a2b3c4d7e6f8a9b0c1d2e3f4a5b#128, kind⟩

def sealingKeyring : CredentialKeyring where
  currentVersion := 7
  keys version := if version = 7 then some (testKey 0x42) else none
  current := rfl

/-- The same key under its version, and a new current one. -/
def rotatedKeyring : CredentialKeyring where
  currentVersion := 8
  keys version :=
    if version = 7 then some (testKey 0x42) else if version = 8 then some (testKey 0x24) else none
  current := rfl

theorem envelopes_open_as_sealed_rotated :
    let aes := tableCipher (sealingKeyring.query testNonce (testBinding .access) "secret")
    ∃ envelope, sealingKeyring.seal aes testNonce (testBinding .access) "secret" = .ok envelope ∧
      rotatedKeyring.openEnvelope aes (testBinding .access) envelope = .ok "secret" ∧
      ∀ text, rotatedKeyring.openEnvelope aes (testBinding .refresh) envelope ≠ .ok text := by
  intro aes
  have hseal : sealingKeyring.seal aes testNonce (testBinding .access) "secret" =
      .ok (envelopeBytes 7 testNonce.1 (utf8 "secret" ++ List.replicate TAG_LEN 0)) := rfl
  obtain ⟨hopens, hrefused, -⟩ :=
    envelopes_open_as_sealed (tableCipher_ideal _) rfl hseal rotatedKeyring
  exact ⟨_, hseal, hopens rfl, hrefused _ (by decide)⟩

end Law

end InstagramArchive.Credentials
