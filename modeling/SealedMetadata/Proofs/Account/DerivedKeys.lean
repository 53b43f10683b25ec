import SealedMetadata.Proofs.Account.LoginFlow

/-!
The keys that a password and a salt give in two lengths. Both are cut from one block, which is
summed over all iterations before it is cut, so the short key is the first half of the long one. A
count of iterations that is not positive stands for the usual one, and a length that is none of the
two is refused before anything else is looked at. The master key of newer accounts is therefore the
short key, although it is made from the long one.
-/

namespace SealedMetadata.PasswordKey

/-- What a password, a salt and a count of iterations give: keys of the two lengths, cut from one
block, and no others. -/
structure TwoLengths (password salt : Secret) (count : Int) : Prop where
  short_eq : derive256 password salt count = (derive512 password salt count).take 32
  length_short : (derive256 password salt count).length = 32
  length_long : (derive512 password salt count).length = 64
  long_eq : 0 < count → derive512 password salt count =
    Pbkdf2.linkSum password.content salt.content 1 count.toNat
  short : derive password salt count 32 = .ok (derive256 password salt count)
  long : derive password salt count 64 = .ok (derive512 password salt count)
  refused : ∀ length, length ≠ 32 → length ≠ 64 →
    derive password salt count length = .error (.keyLength [32, 64] length)

theorem iterationsOf_of_pos {count : Int} (h : 0 < count) : iterationsOf count = count.toNat :=
  if_neg (by omega)

theorem iterationsOf_of_nonpos {count : Int} (h : count ≤ 0) :
    iterationsOf count = iterationsOf 200000 :=
  if_pos h

/-- The short key is the first half of the long one. -/
theorem derive256_eq_take (password salt : Secret) (count : Int) :
    derive256 password salt count = (derive512 password salt count).take 32 :=
  Pbkdf2.derive_eq_take_derive password.content salt.content (iterationsOf count) (by decide)

theorem derive512_of_pos (password salt : Secret) {count : Int} (h : 0 < count) :
    derive512 password salt count =
      Pbkdf2.linkSum password.content salt.content 1 count.toNat := by
  have hpos : 1 ≤ count.toNat := by omega
  rw [derive512, iterationsOf_of_pos h, Pbkdf2.derive_block password.content salt.content hpos]

theorem twoLengths (password salt : Secret) (count : Int) : TwoLengths password salt count where
  short_eq := derive256_eq_take password salt count
  length_short := length_derive256 password salt count
  length_long := length_derive512 password salt count
  long_eq := derive512_of_pos password salt
  short := rfl
  long := rfl
  refused := by
    intro length hshort hlong
    rw [derive, if_neg hshort, if_neg hlong]
    rfl

/-- Counts of iterations that stand for the same number give the same keys, or the same refusal. -/
theorem derive_of_iterationsOf_eq (password salt : Secret) {count count' : Int}
    (h : iterationsOf count = iterationsOf count') :
    derive256 password salt count = derive256 password salt count' ∧
      derive512 password salt count = derive512 password salt count' ∧
      ∀ length, derive password salt count length = derive password salt count' length := by
  have hshort : derive256 password salt count = derive256 password salt count' := by
    rw [derive256, derive256, h]
  have hlong : derive512 password salt count = derive512 password salt count' := by
    rw [derive512, derive512, h]
  refine ⟨hshort, hlong, ?_⟩
  intro length
  rw [derive, derive, hshort, hlong]

/-- The credentials of a newer account are a key's halves, of which the first one is the short
key. -/
theorem exists_credentials (password salt : Secret) :
    ∃ c, Credentials.ofPasswordAndSalt password salt = .ok c ∧ c.authVersion = .derived ∧
      c.masterKey = derive256 password salt 200000 := by
  have hhalves := Credentials.ofPasswordAndSalt_eq password salt
  have hmaster := derive256_eq_take password salt 200000
  exact ⟨_, hhalves, rfl, hmaster.symm⟩

/-- A password and a salt give a short key of 32 bytes and a long one of 64, which begins with the
short one and is the sum of as many links of the chain of codes as there are iterations; a count
that is not positive stands for 200000 of them. Every other length is refused, whatever the count.
So the master key of an account of the second version, which is cut from the long key, is the short
key of its password and salt. -/
theorem keys_of_two_lengths_cut_from_one_block :
    (∀ (password salt : Secret) (count : Int), TwoLengths password salt count) ∧
    (∀ (password salt : Secret) (count : Int), count ≤ 0 →
      derive256 password salt count = derive256 password salt 200000 ∧
      derive512 password salt count = derive512 password salt 200000 ∧
      ∀ length, derive password salt count length = derive password salt 200000 length) ∧
    (∀ password salt : Secret, ∃ c, Credentials.ofPasswordAndSalt password salt = .ok c ∧
      c.masterKey = derive256 password salt 200000 ∧
      c.masterKeyHex = .ok (Hex.encode (derive256 password salt 200000)) ∧
      ∀ (version : RequestedVersion) (r : RandomSource), version.number? = some 2 →
        salt.content ≠ [] →
        ((Credentials.forVersion version password (.ok (some salt))).run r).result = .ok c) := by
  refine ⟨twoLengths, ?_, ?_⟩
  · intro password salt count hcount
    exact derive_of_iterationsOf_eq password salt (iterationsOf_of_nonpos hcount)
  · intro password salt
    obtain ⟨c, hc, hversion, hmaster⟩ := exists_credentials password salt
    refine ⟨c, hc, hmaster, ?_, ?_⟩
    · rw [Credentials.masterKeyHex, hversion, hmaster]
      rfl
    · intro version r htwo hsalt
      rw [Credentials.result_forVersion_second htwo password hsalt, hc]

/-- A password that is longer than a block, with two iterations, with fewer than none, with a length
between the two, and as that of an account of the second version. -/
theorem long_password_gives_both_keys :
    ∃ password, password = Secret.bytes (List.replicate 129 120) ∧
      derive512 password (.text "salt") 2 =
        Pbkdf2.linkSum (List.replicate 129 120) (Utf8.encode "salt") 1 2 ∧
      derive256 password (.text "salt") 2 = (derive512 password (.text "salt") 2).take 32 ∧
      derive256 password (.text "salt") (-5) = derive256 password (.text "salt") 200000 ∧
      derive password (.text "salt") (-5) 48 = .error (.keyLength [32, 64] 48) ∧
      ∃ c, ((Credentials.forVersion (.ofInt 2) password (.ok (some (.text "salt")))).run
          (.cycle [])).result = .ok c ∧
        c.masterKey = derive256 password (.text "salt") 200000 := by
  obtain ⟨hkeys, hfallback, haccount⟩ := keys_of_two_lengths_cut_from_one_block
  refine ⟨_, rfl, ?_, ?_, ?_, ?_, ?_⟩
  · exact (hkeys _ (.text "salt") 2).long_eq (by decide)
  · exact (hkeys _ _ 2).short_eq
  · exact (hfallback _ _ (-5) (by decide)).1
  · exact (hkeys _ _ (-5)).refused 48 (by decide) (by decide)
  · obtain ⟨c, -, hmaster, -, hresult⟩ := haccount _ (.text "salt")
    exact ⟨c, hresult (.ofInt 2) (.cycle []) rfl (by decide), hmaster⟩

end SealedMetadata.PasswordKey
