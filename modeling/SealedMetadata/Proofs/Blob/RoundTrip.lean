import SealedMetadata.Proofs.Blob.Outcome
import SealedMetadata.Proofs.Blob.Sniffing
import SealedMetadata.Proofs.Bytes.Base64
import SealedMetadata.Proofs.Cipher.ChainedBlocks
import SealedMetadata.Proofs.Cipher.CounterMode

/-!
Blobs of both formats read back. The format, the salt and the nonce are found where the encryption
put them, and the ciphers undo themselves.
-/

namespace SealedMetadata.Blob

namespace Salted

theorem decrypt_encryptWith (key : Secret) {salt : Bytes} (hsalt : salt.length = saltLength)
    (text : Bytes) : decrypt key (encryptWith key salt text) = .ok text := by
  obtain ⟨body, hbody⟩ : ∃ body, body =
      Cbc.encrypt (keyAndVector key salt).1 (keyAndVector key salt).2 text := ⟨_, rfl⟩
  have hblob : encryptWith key salt text = marker ++ (salt ++ body) := by
    rw [hbody, ← List.append_assoc]
    rfl
  have hlong : ¬(marker ++ (salt ++ body)).length < marker.length + saltLength := by
    rw [List.length_append, List.length_append, hsalt]
    omega
  have htake : (salt ++ body).take saltLength = salt := List.take_left' hsalt
  have hdrop : (salt ++ body).drop saltLength = body := List.drop_left' hsalt
  rw [hblob, decrypt_eq, if_neg hlong]
  simp only [List.drop_left, htake, hdrop]
  rw [hbody, Cbc.decrypt?_encrypt]

end Salted

namespace Authenticated

theorem decrypt_encryptWith (key : Secret) {nonce : Bytes} (hnonce : nonce.length = 12)
    (text : Bytes) : decrypt key (encryptWith key nonce text) = .ok text := by
  obtain ⟨body, hbody⟩ : ∃ body, body = Gcm.encrypt (cipherKey key) nonce text := ⟨_, rfl⟩
  have hmarked : encryptWith key nonce text = nonce ++ Base64.encode body := by
    rw [hbody]
    rfl
  have hlong : ¬(nonce ++ Base64.encode body).length ≤ nonceLength := by
    have htag : 16 ≤ body.length := by
      rw [hbody, Gcm.length_encrypt _ hnonce]
      omega
    have hencoded := Base64.length_encode body
    rw [List.length_append, hnonce, nonceLength]
    omega
  have htake : (nonce ++ Base64.encode body).take nonceLength = nonce := List.take_left' hnonce
  have hdrop : (nonce ++ Base64.encode body).drop nonceLength = Base64.encode body :=
    List.drop_left' hnonce
  rw [hmarked, decrypt_eq, if_neg hlong, htake, hdrop, Base64.decode?_encode, hbody]
  simp only [Gcm.decrypt?_encrypt _ hnonce]

end Authenticated

/-- Sniffing finds the format that an encryption wrote. -/
theorem sniff_blobOf (v : Version) (key : Secret) (salt : Option Bytes) (r : RandomSource)
    (text : Bytes) : sniff (blobOf v key salt r text) = .ok v := by
  cases v with
  | cbc =>
    rw [blobOf, Salted.encryptWith, List.append_assoc]
    exact sniff_marker _
  | gcm => exact sniff_versionMarker .gcm _

theorem reading_blobOf (v : Version) (key : Secret) (salt : Option Bytes) (r : RandomSource)
    (text : Bytes) : reading (blobOf v key salt r text) key = .ok text := by
  rw [reading, sniff_blobOf]
  cases v with
  | cbc => exact Salted.decrypt_encryptWith key (Salted.length_saltOf salt r) text
  | gcm => exact Authenticated.decrypt_encryptWith key (Authenticated.length_nonceOf r) text

/-- Every text is read back from its blob: encryption in a supported version succeeds, whatever
salt it is given, and any key of the same bytes decrypts the blob to the text. -/
theorem blob_reads_back {requested : RequestedVersion} {v : Version}
    (hv : Version.ofRequest requested = .ok v) {key key' : Secret}
    (hkey : key'.content = key.content) (text : Bytes) (salt : Option Bytes)
    (r r' : RandomSource) :
    ∃ blob, ((encrypt text key requested salt).run r).result = .ok blob ∧
      ((decrypt blob key').run r').result = .ok text := by
  refine ⟨blobOf v key salt r text, result_encrypt hv text key salt r, ?_⟩
  rw [result_decrypt, reading_congr _ hkey, reading_blobOf]

/-- A text of one whole block, with a salt of the wrong length and the key held in two ways. -/
theorem whole_block_reads_back :
    Version.ofRequest (.ofInt 1) = .ok .cbc ∧
      (Secret.sealedBytes [107, 101, 121]).content = (Secret.text "key").content ∧
      ∃ blob, ((encrypt (List.replicate 16 0) (.text "key") (.ofInt 1) (some [1, 2, 3])).run
          (.cycle [7])).result = .ok blob ∧
        ((decrypt blob (.sealedBytes [107, 101, 121])).run (.cycle [])).result =
          .ok (List.replicate 16 0) := by
  have hkey : (Secret.sealedBytes [107, 101, 121]).content = (Secret.text "key").content := by
    decide
  exact ⟨rfl, hkey, blob_reads_back rfl hkey _ _ _ _⟩

end SealedMetadata.Blob
