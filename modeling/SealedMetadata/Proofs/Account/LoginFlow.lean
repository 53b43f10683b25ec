import SealedMetadata.Payload.AuthInfo
import SealedMetadata.Payload.Login
import SealedMetadata.Proofs.Kdf.PasswordBlocks
import SealedMetadata.Proofs.Session.Vaulted
import SealedMetadata.Proofs.Text.HexDigits

/-!
From what the service tells about an account to the login request. The version decides which
credentials a password gives, or why it gives none. Both halves of the credentials show as
lower-case hexadecimal, and the request carries the sent one. Two derived keys that differ in the
master key's half only are sent as the same request.
-/

namespace SealedMetadata

theorem Value.same_int_iff (v : Vault) (x : Value) (n : Int) :
    x.same v (.int n) = true ↔ x.number? = some n := by
  have hsame : x.same v (.int n) = (x.number? == some n) := by
    cases x with
    | float y =>
      rw [Value.same.eq_def]
      dsimp only
      cases (Value.float y).number? <;> rfl
    | _ =>
      rw [Value.same.eq_def]
      rfl
  rw [hsame, beq_iff_eq]

namespace LoginRequest

/-- The fields of the request that goes with credentials. -/
def sentFields (email : Value) (c : SealedCredentials) (twoFactorKey : Value) : Vaulted Value := do
  let m ← forCredentials email c twoFactorKey
  Vaulted.inspect fun v => m.toFields v

theorem run_sentFields (email twoFactorKey : Value) {c : SealedCredentials} {v : Vault}
    {sent : String} (h : (c.contents v).sentPasswordHex = .ok sent) (r : RandomSource) :
    ((sentFields email c twoFactorKey).run v).run r =
      ⟨.ok (.record [("email", email), ("password", .text sent),
        ("twoFactorKey",
          if twoFactorKey.countsAsTrue v then twoFactorKey else .text noTwoFactorKey),
        ("authVersion", .int c.authVersion.number)],
        (v.add .text (Utf8.encode sent)).2), [], r⟩ := by
  have hmade : ((forCredentials email c twoFactorKey).run v).run r =
      ⟨.ok (⟨email, (v.add .text (Utf8.encode sent)).1,
        if twoFactorKey.countsAsTrue v then twoFactorKey else .text noTwoFactorKey,
        .int c.authVersion.number⟩, (v.add .text (Utf8.encode sent)).2), [], r⟩ := by
    rw [forCredentials, Vaulted.run_bind_of_silent _ (Vaulted.run_inspect h r)]
    rfl
  have htext : (v.add .text (Utf8.encode sent)).1.text (v.add .text (Utf8.encode sent)).2 =
      .ok sent :=
    Sealed.text_of_content (Vault.content_add_new v .text _)
  rw [sentFields, Vaulted.run_bind_of_silent _ hmade]
  apply Vaulted.run_inspect
  rw [toFields, htext]
  rfl

end LoginRequest

namespace Credentials

/-- Credentials that show as hexadecimal texts and are sent as such, with a version number. -/
structure ShowsAs (c : Credentials) (masterKey sent : String) (version : Int) : Prop where
  masterKeyHex : c.masterKeyHex = .ok masterKey
  sentPasswordHex : c.sentPasswordHex = .ok sent
  lower : Hex.IsLower masterKey ∧ Hex.IsLower sent
  request : ∀ (email twoFactorKey : Value) (kept : SealedCredentials) (v : Vault)
    (r : RandomSource), kept.contents v = c → ∃ key v',
      (((LoginRequest.sentFields email kept twoFactorKey).run v).run r).result =
        .ok (.record [("email", email), ("password", .text sent), ("twoFactorKey", key),
          ("authVersion", .int version)], v')

theorem showsAs_of_hex {c : Credentials} {masterKey sent : String}
    (hmaster : c.masterKeyHex = .ok masterKey) (hsent : c.sentPasswordHex = .ok sent)
    (hlower : Hex.IsLower masterKey ∧ Hex.IsLower sent) :
    c.ShowsAs masterKey sent c.authVersion.number := by
  refine ⟨hmaster, hsent, hlower, ?_⟩
  intro email twoFactorKey kept v r hkept
  have hversion : kept.authVersion = c.authVersion := by
    rw [← hkept]
    rfl
  rw [← hkept] at hsent
  have hrun := LoginRequest.run_sentFields email twoFactorKey hsent r
  rw [hversion] at hrun
  exact ⟨_, _, congrArg Outcome.result hrun⟩

theorem hexOf_fingerprint {s : String} (h : Hex.IsLower s) :
    AuthVersion.fingerprint.hexOf (Utf8.encode s) = .ok s := by
  rw [AuthVersion.hexOf, h.decodeAscii?_encode]

/-- The credentials of an old account are fingerprints, which are hexadecimal already. -/
theorem ofPassword_showsAs (password : Secret) :
    (ofPassword password).ShowsAs (Fingerprint.short password.content)
      (Fingerprint.long password.content) 1 := by
  have hshort : Hex.IsLower (Fingerprint.short password.content) := Hex.isLower_encode _
  have hlong : Hex.IsLower (Fingerprint.long password.content) :=
    (Hex.isLower_encode _).append (Hex.isLower_encode _)
  exact showsAs_of_hex (hexOf_fingerprint hshort) (hexOf_fingerprint hlong) ⟨hshort, hlong⟩

/-- The master key in a derived key, in hexadecimal. -/
def masterKeyIn (key : Bytes) : String := Hex.encode (key.take 32)

/-- What is sent of a derived key: the digest of the hexadecimal text of its last bytes. -/
def sentPasswordIn (key : Bytes) : String :=
  Hex.encode (Sha512.digest (Utf8.encode (Hex.encode (key.drop 32))))

/-- The credentials in a derived key of the right length. -/
def halves (key : Bytes) : Credentials :=
  ⟨key.take 32, Sha512.digest (Hex.encodeBytes (key.drop 32)), .derived⟩

theorem ofDerivedKey_eq {key : Bytes} (hkey : key.length = 64) :
    ofDerivedKey key = .ok (halves key) :=
  if_pos hkey

/-- A derived key always has two halves. -/
theorem ofPasswordAndSalt_eq (password salt : Secret) :
    ofPasswordAndSalt password salt = .ok (halves (PasswordKey.derive512 password salt 200000)) :=
  ofDerivedKey_eq (PasswordKey.length_derive512 password salt 200000)

theorem halves_showsAs (key : Bytes) :
    (halves key).ShowsAs (masterKeyIn key) (sentPasswordIn key) 2 := by
  have hsent : (halves key).sentPasswordHex = .ok (sentPasswordIn key) := by
    rw [sentPasswordIn, Hex.utf8_encode]
    rfl
  exact showsAs_of_hex rfl hsent ⟨Hex.isLower_encode _, Hex.isLower_encode _⟩

theorem length_halves {key : Bytes} (hkey : key.length = 64) :
    (masterKeyIn key).length = 64 ∧ (sentPasswordIn key).length = 128 := by
  rw [masterKeyIn, sentPasswordIn, Hex.length_encode, Hex.length_encode, List.length_take, hkey,
    Sha512.length_digest]
  exact ⟨rfl, rfl⟩

section ForVersion

variable {version : RequestedVersion} {r : RandomSource}

theorem result_forVersion_first (h : version.number? = some 1) (password : Secret)
    (salt : Except Failure (Option Secret)) :
    ((forVersion version password salt).run r).result = .ok (ofPassword password) := by
  rw [forVersion_eq, if_pos h]
  rfl

theorem result_forVersion_second (h : version.number? = some 2) (password : Secret) {salt : Secret}
    (hsalt : salt.content ≠ []) :
    ((forVersion version password (.ok (some salt))).run r).result =
      ofPasswordAndSalt password salt := by
  have hone : ¬ version.number? = some 1 := by
    rw [h]
    decide
  have hfull : ¬ salt.isEmpty = true := by
    rw [Secret.isEmpty_iff]
    exact hsalt
  rw [forVersion_eq, if_neg hone, if_pos h, Action.ofExcept_ok_bind]
  dsimp only
  rw [if_neg hfull]
  rfl

/-- The password is read once there is a salt. -/
theorem result_forVersionUnread_salted (h : version.number? = some 2) (e : Failure) {salt : Secret}
    (hsalt : salt.content ≠ []) :
    ((forVersionUnread version (.error e) (.ok (some salt))).run r).result = .error e := by
  have hone : ¬ version.number? = some 1 := by
    rw [h]
    decide
  have hfull : ¬ salt.isEmpty = true := by
    rw [Secret.isEmpty_iff]
    exact hsalt
  rw [forVersionUnread, if_neg hone, if_pos h, Action.ofExcept_ok_bind]
  dsimp only
  rw [if_neg hfull]
  rfl

theorem result_forVersionUnread_unsalted (h : version.number? = some 2) (password : UnreadSecret)
    {salt : Option Secret} (hsalt : ∀ s ∈ salt, s.content = []) :
    ((forVersionUnread version password (.ok salt)).run r).result =
      .error (.malformed .saltMissing) := by
  have hone : ¬ version.number? = some 1 := by
    rw [h]
    decide
  rw [forVersionUnread, if_neg hone, if_pos h, Action.ofExcept_ok_bind]
  cases salt with
  | none => rfl
  | some s =>
    have hempty : s.isEmpty = true := by
      rw [Secret.isEmpty_iff]
      exact hsalt s rfl
    dsimp only
    rw [if_pos hempty]
    rfl

theorem result_forVersion_unsalted (h : version.number? = some 2) (password : Secret)
    {salt : Option Secret} (hsalt : ∀ s ∈ salt, s.content = []) :
    ((forVersion version password (.ok salt)).run r).result = .error (.malformed .saltMissing) :=
  result_forVersionUnread_unsalted h (.ok password) hsalt

theorem result_forVersion_unknown (hone : ¬ version.number? = some 1)
    (htwo : ¬ version.number? = some 2) (password : Secret)
    (salt : Except Failure (Option Secret)) :
    ((forVersion version password salt).run r).result =
      .error (.unsupportedVersion version.shown) := by
  rw [forVersion_eq, if_neg hone, if_neg htwo]
  rfl

end ForVersion

/-- A salt that is there and not empty. -/
def IsSalted (salt : Option Secret) : Prop := ∃ s ∈ salt, s.content ≠ []

/-- What a version value makes of a password and a salt: credentials of the one or the other kind,
with their texts of fixed lengths, or a failure that tells what is wrong. -/
structure FollowsVersion (v : Vault) (x : Value) (password : Secret) (salt : Option Secret)
    (o : Except Failure Credentials) : Prop where
  succeeds_iff : (∃ c, o = .ok c) ↔
    x.same v (.int 1) = true ∨ x.same v (.int 2) = true ∧ IsSalted salt
  unsalted : x.same v (.int 2) = true → ¬ IsSalted salt → o = .error (.malformed .saltMissing)
  unknown : ¬ x.same v (.int 1) = true → ¬ x.same v (.int 2) = true →
    o = .error (.unsupportedVersion (x.display v))
  first : x.same v (.int 1) = true → ∃ c masterKey sent, o = .ok c ∧
    c.ShowsAs masterKey sent 1 ∧ masterKey = Fingerprint.short password.content ∧
    sent = Fingerprint.long password.content ∧ masterKey.length = 40 ∧ sent.length = 256
  second : x.same v (.int 2) = true → ∀ s ∈ salt, s.content ≠ [] → ∃ c masterKey sent, o = .ok c ∧
    c.ShowsAs masterKey sent 2 ∧
    masterKey = masterKeyIn (PasswordKey.derive512 password s 200000) ∧
    sent = sentPasswordIn (PasswordKey.derive512 password s 200000) ∧
    masterKey.length = 64 ∧ sent.length = 128

theorem forVersion_follows (v : Vault) (x : Value) (password : Secret) (salt : Option Secret)
    (r : RandomSource) :
    FollowsVersion v x password salt
      ((forVersion (x.requestedAuthVersion v) password (.ok salt)).run r).result := by
  have hfirst (h : x.same v (.int 1) = true) :
      ((forVersion (x.requestedAuthVersion v) password (.ok salt)).run r).result =
        .ok (ofPassword password) :=
    result_forVersion_first ((x.same_int_iff v 1).mp h) password (.ok salt)
  have hsecond (h : x.same v (.int 2) = true) {s : Secret} (hs : s ∈ salt)
      (hfull : s.content ≠ []) :
      ∃ c, ((forVersion (x.requestedAuthVersion v) password (.ok salt)).run r).result = .ok c ∧
        c.ShowsAs (masterKeyIn (PasswordKey.derive512 password s 200000))
          (sentPasswordIn (PasswordKey.derive512 password s 200000)) 2 := by
    refine ⟨_, ?_, halves_showsAs _⟩
    rw [Option.mem_def.mp hs,
      result_forVersion_second ((x.same_int_iff v 2).mp h) password hfull]
    exact ofPasswordAndSalt_eq password s
  have hunsalted (h : x.same v (.int 2) = true) (hnone : ¬ IsSalted salt) :
      ((forVersion (x.requestedAuthVersion v) password (.ok salt)).run r).result =
        .error (.malformed .saltMissing) := by
    apply result_forVersion_unsalted ((x.same_int_iff v 2).mp h)
    intro s hs
    exact Classical.byContradiction fun hfull => hnone ⟨s, hs, hfull⟩
  have hunknown (hone : ¬ x.same v (.int 1) = true) (htwo : ¬ x.same v (.int 2) = true) :
      ((forVersion (x.requestedAuthVersion v) password (.ok salt)).run r).result =
        .error (.unsupportedVersion (x.display v)) :=
    result_forVersion_unknown (mt (x.same_int_iff v 1).mpr hone) (mt (x.same_int_iff v 2).mpr htwo)
      password (.ok salt)
  refine ⟨?_, hunsalted, hunknown, ?_, ?_⟩
  · constructor
    · rintro ⟨c, hc⟩
      by_cases hone : x.same v (.int 1) = true
      · exact Or.inl hone
      by_cases htwo : x.same v (.int 2) = true
      · refine Or.inr ⟨htwo, Classical.byContradiction fun hnone => ?_⟩
        rw [hunsalted htwo hnone] at hc
        cases hc
      · rw [hunknown hone htwo] at hc
        cases hc
    · rintro (hone | ⟨htwo, s, hs, hfull⟩)
      · exact ⟨_, hfirst hone⟩
      · obtain ⟨c, hc, -⟩ := hsecond htwo hs hfull
        exact ⟨c, hc⟩
  · intro hone
    exact ⟨_, _, _, hfirst hone, ofPassword_showsAs password, rfl, rfl,
      Fingerprint.length_short _, Fingerprint.length_long _⟩
  · intro htwo s hs hfull
    obtain ⟨c, hc, hshows⟩ := hsecond htwo hs hfull
    obtain ⟨hmaster, hsent⟩ := length_halves (PasswordKey.length_derive512 password s 200000)
    exact ⟨c, _, _, hc, hshows, rfl, rfl, hmaster, hsent⟩

end Credentials

/-- The vault with credentials put into new buffers. -/
def Credentials.keptIn (c : Credentials) (v : Vault) : Vault :=
  ((v.add .bytes c.masterKey).2.add .bytes c.sentPassword).2

theorem SealedCredentials.exists_keep (c : Credentials) (v : Vault) (r : RandomSource) :
    ∃ kept, ((keep c).run v).run r = ⟨.ok (kept, c.keptIn v), [], r⟩ ∧
      kept.contents (c.keptIn v) = c := by
  refine ⟨⟨(v.add .bytes c.masterKey).1,
    ((v.add .bytes c.masterKey).2.add .bytes c.sentPassword).1, c.authVersion⟩, rfl, ?_⟩
  have hbefore : (v.add .bytes c.masterKey).1.slot < (v.add .bytes c.masterKey).2.buffers.size := by
    rw [Vault.add, Array.size_push]
    exact Nat.lt_succ_self v.buffers.size
  have hold := Vault.content_add_old (v.add .bytes c.masterKey).2 .bytes c.sentPassword hbefore
  rw [contents, Credentials.keptIn, Vault.content_add_new, hold, Vault.content_add_new]

namespace Vault

theorem content_add (v : Vault) (kind : SealedKind) (b : Bytes) (s : Sealed) :
    (v.add kind b).2.content s = if s.slot = v.buffers.size then b else v.content s := by
  by_cases hs : s.slot = v.buffers.size
  · have hnew := content_add_new v kind b
    rw [content, add] at hnew
    rw [if_pos hs, content, hs, add]
    exact hnew
  · rw [if_neg hs]
    by_cases hlt : s.slot < v.buffers.size
    · exact content_add_old v kind b hlt
    · have hbeyond : ¬ s.slot < v.buffers.size + 1 := by omega
      simp [content, add, Array.getD, hlt, hbeyond]

/-- Two vaults whose buffers are empty at the same places. -/
def EmptyAlike (v w : Vault) : Prop :=
  v.buffers.size = w.buffers.size ∧ ∀ s, (v.content s).isEmpty = (w.content s).isEmpty

theorem EmptyAlike.refl (v : Vault) : v.EmptyAlike v := ⟨rfl, fun _ => rfl⟩

theorem EmptyAlike.add {v w : Vault} (h : v.EmptyAlike w) (kind : SealedKind) {b c : Bytes}
    (hbc : b.isEmpty = c.isEmpty) : (v.add kind b).2.EmptyAlike (w.add kind c).2 := by
  refine ⟨?_, ?_⟩
  · rw [Vault.add, Vault.add, Array.size_push, Array.size_push, h.1]
  · intro s
    rw [content_add, content_add, h.1]
    split
    · exact hbc
    · exact h.2 s

end Vault

/-- Of a sealed value only its being empty decides whether it counts as true. -/
theorem Value.countsAsTrue_congr {v w : Vault} (h : v.EmptyAlike w) (x : Value) :
    x.countsAsTrue v = x.countsAsTrue w := by
  cases x with
  | sealed s => exact congrArg (! ·) (h.2 s)
  | _ => rfl

/-- The request that goes with the credentials in a derived key. -/
def LoginRequest.fieldsOfDerivedKey (key : Bytes) (email twoFactorKey : Value) : Vaulted Value := do
  let c ← Vaulted.perform (Action.ofExcept (Credentials.ofDerivedKey key))
  let kept ← SealedCredentials.keep c
  sentFields email kept twoFactorKey

theorem LoginRequest.exists_fieldsOfDerivedKey {key : Bytes} (hkey : key.length = 64)
    (email twoFactorKey : Value) (v : Vault) (r : RandomSource) :
    ∃ w, (((fieldsOfDerivedKey key email twoFactorKey).run v).run r).result =
      .ok (.record [("email", email), ("password", .text (Credentials.sentPasswordIn key)),
        ("twoFactorKey", if twoFactorKey.countsAsTrue ((Credentials.halves key).keptIn v)
          then twoFactorKey else .text noTwoFactorKey),
        ("authVersion", .int 2)], w) := by
  obtain ⟨kept, hkept, hcontents⟩ := SealedCredentials.exists_keep (Credentials.halves key) v r
  have hsent := (Credentials.halves_showsAs key).sentPasswordHex
  rw [← hcontents] at hsent
  have hversion : kept.authVersion = .derived :=
    congrArg Credentials.authVersion hcontents
  have hfields := run_sentFields email twoFactorKey hsent r
  rw [hversion] at hfields
  have hread : ((Vaulted.perform (Action.ofExcept (Credentials.ofDerivedKey key))).run v).run r =
      ⟨.ok (Credentials.halves key, v), [], r⟩ := by
    rw [Credentials.ofDerivedKey_eq hkey]
    rfl
  have hrun : ((fieldsOfDerivedKey key email twoFactorKey).run v).run r =
      ((sentFields email kept twoFactorKey).run ((Credentials.halves key).keptIn v)).run r := by
    rw [fieldsOfDerivedKey, Vaulted.run_bind_of_silent _ hread, Vaulted.run_bind_of_silent _ hkept]
  exact ⟨_, congrArg Outcome.result (hrun.trans hfields)⟩

/-- Nothing of the master key's half of a derived key is sent. -/
theorem LoginRequest.fieldsOfDerivedKey_congr {key key' : Bytes} (hkey : key.length = 64)
    (hkey' : key'.length = 64) (hhalf : key.drop 32 = key'.drop 32) (email twoFactorKey : Value)
    (v : Vault) (r : RandomSource) :
    ∃ fields w w',
      (((fieldsOfDerivedKey key email twoFactorKey).run v).run r).result = .ok (fields, w) ∧
      (((fieldsOfDerivedKey key' email twoFactorKey).run v).run r).result = .ok (fields, w') := by
  obtain ⟨w, hfields⟩ := exists_fieldsOfDerivedKey hkey email twoFactorKey v r
  obtain ⟨w', hfields'⟩ := exists_fieldsOfDerivedKey hkey' email twoFactorKey v r
  have hnonempty {k : Bytes} (hk : k.length = 64) : (k.take 32).isEmpty = false := by
    rw [← Bool.not_eq_true, List.isEmpty_iff_length_eq_zero, List.length_take, hk]
    decide
  have halike : ((Credentials.halves key).keptIn v).EmptyAlike
      ((Credentials.halves key').keptIn v) := by
    have hmaster : (key.take 32).isEmpty = (key'.take 32).isEmpty := by
      rw [hnonempty hkey, hnonempty hkey']
    have hsent : (Sha512.digest (Hex.encodeBytes (key.drop 32))).isEmpty =
        (Sha512.digest (Hex.encodeBytes (key'.drop 32))).isEmpty := by
      rw [hhalf]
    exact ((Vault.EmptyAlike.refl v).add .bytes hmaster).add .bytes hsent
  rw [Credentials.sentPasswordIn, ← hhalf, ← Value.countsAsTrue_congr halike] at hfields'
  exact ⟨_, w, w', hfields, hfields'⟩

/-- Credentials derived for an account are those of its version and its salt. -/
theorem AuthInfo.exists_derive {m : AuthInfo} {v : Vault} {salt : Option Secret}
    (hsalt : m.salt.toSecret? v = .ok salt) {password : Secret} {r : RandomSource}
    {c : Credentials}
    (hc : ((Credentials.forVersion (m.authVersion.requestedAuthVersion v) password
      (.ok salt)).run r).result = .ok c) :
    ∃ kept v', (((m.derive password).run v).run r).result = .ok (kept, v') ∧
      kept.contents v' = c := by
  have hderived := hc
  rw [← hsalt] at hderived
  obtain ⟨kept, hkept, hcontents⟩ := SealedCredentials.exists_keep c v
    ((Credentials.forVersion (m.authVersion.requestedAuthVersion v) password
      (m.salt.toSecret? v)).run r).source
  have hget : ((get : Vaulted Vault).run v).run r = ⟨.ok (v, v), [], r⟩ := rfl
  refine ⟨kept, c.keptIn v, ?_, hcontents⟩
  rw [derive, Vaulted.run_bind_of_silent _ hget, Vaulted.result_perform_bind _ hderived, hkept]

/-- From the description of an account to its login request. What a password gives follows the
version value alone: fingerprints, the halves of a derived key, or a failure. Credentials derived
for an account are these, and their request carries the sent half and the plain version number.
The other half has no part in it. -/
theorem login_follows_version :
    (∀ (v : Vault) (x : Value) (password : Secret) (salt : Option Secret) (r : RandomSource),
      Credentials.FollowsVersion v x password salt
        ((Credentials.forVersion (x.requestedAuthVersion v) password (.ok salt)).run r).result) ∧
    (∀ (m : AuthInfo) (v : Vault) (password : Secret) (salt : Option Secret) (r : RandomSource)
      (c : Credentials), m.salt.toSecret? v = .ok salt →
      ((Credentials.forVersion (m.authVersion.requestedAuthVersion v) password
        (.ok salt)).run r).result = .ok c →
      ∃ kept v', (((m.derive password).run v).run r).result = .ok (kept, v') ∧
        kept.contents v' = c) ∧
    (∀ (key key' : Bytes) (email twoFactorKey : Value) (v : Vault) (r : RandomSource),
      key.length = 64 → key'.length = 64 → key.drop 32 = key'.drop 32 →
      ∃ fields w w',
        (((LoginRequest.fieldsOfDerivedKey key email twoFactorKey).run v).run r).result =
          .ok (fields, w) ∧
        (((LoginRequest.fieldsOfDerivedKey key' email twoFactorKey).run v).run r).result =
          .ok (fields, w')) := by
  refine ⟨?_, ?_, ?_⟩
  · intro v x password salt r
    exact Credentials.forVersion_follows v x password salt r
  · intro m v password salt r c hsalt hc
    exact AuthInfo.exists_derive hsalt hc
  · intro key key' email twoFactorKey v r hkey hkey' hhalf
    exact LoginRequest.fieldsOfDerivedKey_congr hkey hkey' hhalf email twoFactorKey v r

/-- A truth value is taken for version one, of which the request has the number; and two derived
keys with different master keys are sent alike. -/
theorem truth_value_logs_in_as_first_version :
    (∃ c masterKey sent, ((Credentials.forVersion ((Value.bool true).requestedAuthVersion .empty)
        (.text "secret") (.ok none)).run (.cycle [])).result = .ok c ∧
      c.ShowsAs masterKey sent 1 ∧ masterKey.length = 40 ∧ sent.length = 256 ∧
      ∃ kept v', (((AuthInfo.derive ⟨.text "a", .bool true, .none⟩ (.text "secret")).run
        .empty).run (.cycle [])).result = .ok (kept, v') ∧ kept.contents v' = c) ∧
    ∃ fields w w',
      (((LoginRequest.fieldsOfDerivedKey (List.replicate 32 0 ++ List.replicate 32 7) (.text "a")
        .none).run .empty).run (.cycle [])).result = .ok (fields, w) ∧
      (((LoginRequest.fieldsOfDerivedKey (List.replicate 32 1 ++ List.replicate 32 7) (.text "a")
        .none).run .empty).run (.cycle [])).result = .ok (fields, w') := by
  obtain ⟨hfollows, hderive, hsent⟩ := login_follows_version
  refine ⟨?_, ?_⟩
  · obtain ⟨c, masterKey, sent, hc, hshows, -, -, hshort, hlong⟩ :=
      (hfollows .empty (.bool true) (.text "secret") none (.cycle [])).first
        ((Value.same_int_iff .empty (.bool true) 1).mpr rfl)
    exact ⟨c, masterKey, sent, hc, hshows, hshort, hlong,
      hderive ⟨.text "a", .bool true, .none⟩ .empty (.text "secret") none (.cycle []) c rfl hc⟩
  · exact hsent _ _ (.text "a") .none .empty (.cycle []) (by decide) (by decide) (by decide)

end SealedMetadata
