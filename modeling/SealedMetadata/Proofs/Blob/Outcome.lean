import SealedMetadata.Blob.Basic

/-!
What encryption and decryption come to. An encryption in a supported version always gives a blob,
which is named here with the salt or nonce that it takes from the random source. A decryption
takes nothing from it, and knows the key by its bytes alone.
-/

namespace SealedMetadata.Blob

namespace Salted

/-- The salt that an encryption uses: the caller's if it has eight bytes, else a random one. -/
def saltOf (salt : Option Bytes) (r : RandomSource) : Bytes :=
  match salt with
  | some s => if s.length = saltLength then s else r.peek saltLength
  | none => r.peek saltLength

theorem length_saltOf (salt : Option Bytes) (r : RandomSource) :
    (saltOf salt r).length = saltLength := by
  unfold saltOf
  split
  · split
    · assumption
    · exact RandomSource.length_peek r _
  · exact RandomSource.length_peek r _

theorem result_encrypt (key : Secret) (salt : Option Bytes) (text : Bytes) (r : RandomSource) :
    ((encrypt key salt text).run r).result = .ok (encryptWith key (saltOf salt r) text) := by
  cases salt with
  | none => rfl
  | some s =>
    by_cases hs : s.length = saltLength
    · simp only [encrypt_eq, chooseSalt, saltOf, if_pos hs]
      rfl
    · simp only [encrypt_eq, chooseSalt, saltOf, if_neg hs]
      rfl

theorem decrypt_congr {k k' : Secret} (h : k'.content = k.content) : decrypt k' = decrypt k := by
  funext blob
  simp only [decrypt_eq, keyAndVector, h]

end Salted

namespace Authenticated

/-- The nonce that an encryption draws. -/
def nonceOf (r : RandomSource) : Bytes := (r.peek nonceLength).map Alphanumeric.pick

theorem length_nonceOf (r : RandomSource) : (nonceOf r).length = 12 := by
  rw [nonceOf, List.length_map, RandomSource.length_peek, nonceLength]

theorem decrypt_congr {k k' : Secret} (h : k'.content = k.content) : decrypt k' = decrypt k := by
  funext body
  simp only [decrypt_eq, cipherKey, PasswordKey.derive256, h]

end Authenticated

/-- The blob that an encryption gives. -/
def blobOf (v : Version) (key : Secret) (salt : Option Bytes) (r : RandomSource) (text : Bytes) :
    Bytes :=
  match v with
  | .cbc => Salted.encryptWith key (Salted.saltOf salt r) text
  | .gcm => Version.gcm.marker ++ Authenticated.encryptWith key (Authenticated.nonceOf r) text

/-- An encryption in a supported version succeeds, whatever the text, the key and the salt. -/
theorem result_encrypt {requested : RequestedVersion} {v : Version}
    (hv : Version.ofRequest requested = .ok v) (text : Bytes) (key : Secret) (salt : Option Bytes)
    (r : RandomSource) :
    ((encrypt text key requested salt).run r).result = .ok (blobOf v key salt r text) := by
  rw [encrypt_eq, hv, Action.ofExcept_ok_bind, Action.result_bind, Action.run_log]
  cases v with
  | cbc => exact Salted.result_encrypt key salt text r
  | gcm => rfl

/-- The text that a blob holds under a key, or why there is none. -/
def reading (blob : Bytes) (key : Secret) : Except Failure Bytes :=
  match sniff blob with
  | .ok v => decryptAs v key blob
  | .error e => .error e

theorem result_decrypt (blob : Bytes) (key : Secret) (r : RandomSource) :
    ((decrypt blob key).run r).result = reading blob key := by
  rw [decrypt_eq, reading]
  cases sniff blob <;> rfl

theorem decryptAs_congr (v : Version) {k k' : Secret} (h : k'.content = k.content) :
    decryptAs v k' = decryptAs v k := by
  funext blob
  cases v with
  | cbc => exact congrFun (Salted.decrypt_congr h) blob
  | gcm => exact congrFun (Authenticated.decrypt_congr h) (blob.drop 3)

theorem reading_congr (blob : Bytes) {k k' : Secret} (h : k'.content = k.content) :
    reading blob k' = reading blob k := by
  rw [reading, reading]
  cases sniff blob with
  | error e => rfl
  | ok v => exact congrFun (decryptAs_congr v h) blob

end SealedMetadata.Blob
