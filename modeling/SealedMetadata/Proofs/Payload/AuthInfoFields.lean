import SealedMetadata.Proofs.Account.LoginFlow
import SealedMetadata.Proofs.Decimal.Truncation
import SealedMetadata.Proofs.Secret.SameContent
import SealedMetadata.Proofs.Text.Numeral

/-!
The record form of an account's description. A version is sent as a plain number and an empty salt
is not sent at all, so a description that is written and read again can differ in an empty salt
only. Such a salt is as good as none for the credentials, and what has been read once is read the
same ever after.
-/

namespace SealedMetadata

theorem Decimal.IsTruncation.unique {q : ℚ} {m n : ℤ} (hm : IsTruncation q m)
    (hn : IsTruncation q n) : m = n := by
  rcases le_total 0 q with hq | hq
  · exact (hm.1 hq).trans (hn.1 hq).symm
  · exact (hm.2 hq).trans (hn.2 hq).symm

namespace Value

/-- The number that a value is read as: a truth value is one or zero, a finite number loses its
fraction, a text or the ASCII of one is a numeral, and an identifier is the number of its bits. -/
inductive ReadsAs : Value → Int → Prop
  | bool (b : Bool) : ReadsAs (.bool b) b.toNat
  | int (n : Int) : ReadsAs (.int n) n
  | float {x : Float} {n : Int} (hnumber : x.isNaN = false) (hfinite : x.isInf = false)
      (h : Decimal.IsTruncation (Decimal.toRat x) n) : ReadsAs (.float x) n
  | text {s : String} {n : Int} (h : Text.IsNumeral s.toList n) : ReadsAs (.text s) n
  | bytes {b : Bytes} {n : Int} (h : Text.IsNumeral (b.map Text.IntLiteral.ofByte) n) :
      ReadsAs (.bytes b) n
  | uuid (u : Uuid) : ReadsAs (.uuid u) u.value.toNat
  | version (w : Version) : ReadsAs (.version w) w.number

theorem spelled_eq_ok_iff {shown : String} {parsed : Except Text.IntLiteral.Refusal Int}
    {n : Int} : spelled shown parsed = .ok n ↔ parsed = .ok n := by
  unfold spelled
  split <;> simp

theorem toInt_of_readsAs {x : Value} {n : Int} (h : x.ReadsAs n) : x.toInt = .ok n := by
  cases h with
  | bool b => rfl
  | int n => rfl
  | @float y n hnumber hfinite h =>
    have htruncate : Decimal.truncate y = n := (Decimal.truncate_isTruncation y).unique h
    rw [toInt, hnumber, hfinite, htruncate]
    rfl
  | text h => exact spelled_eq_ok_iff.mpr (Text.IntLiteral.parse_eq_ok_iff.mpr h)
  | bytes h => exact spelled_eq_ok_iff.mpr (Text.IntLiteral.parseChars_of_isNumeral h)
  | uuid u => rfl
  | version w => rfl

theorem readsAs_of_toInt {x : Value} {n : Int} (h : x.toInt = .ok n) : x.ReadsAs n := by
  cases x with
  | bool b =>
    cases h
    exact .bool b
  | int k =>
    cases h
    exact .int _
  | version w =>
    cases h
    exact .version w
  | float y =>
    rw [toInt] at h
    split at h
    · cases h
    next hnumber =>
    split at h
    · cases h
    next hfinite =>
    -- what is left is finite, and its fraction goes towards zero
    rw [← Except.ok.inj h]
    rw [Bool.not_eq_true] at hnumber hfinite
    exact .float hnumber hfinite (Decimal.truncate_isTruncation y)
  | text s => exact .text (Text.IntLiteral.parse_eq_ok_iff.mp (spelled_eq_ok_iff.mp h))
  | bytes b => exact .bytes (Text.IntLiteral.isNumeral_of_parseChars (spelled_eq_ok_iff.mp h))
  | uuid u =>
    cases h
    exact .uuid u
  | _ => cases h

theorem toInt_eq_ok_iff {x : Value} {n : Int} : x.toInt = .ok n ↔ x.ReadsAs n :=
  ⟨readsAs_of_toInt, toInt_of_readsAs⟩

section OrNone

variable {v : Vault} {x : Value}

theorem orNone_of_true (h : x.countsAsTrue v = true) : x.orNone v = x := if_pos h

theorem orNone_of_false (h : x.countsAsTrue v = false) : x.orNone v = .none := by
  rw [orNone, h]
  exact if_neg Bool.false_ne_true

theorem orNone_orNone (v : Vault) (x : Value) : (x.orNone v).orNone v = x.orNone v := by
  cases h : x.countsAsTrue v with
  | true => rw [orNone_of_true h, orNone_of_true h]
  | false =>
    rw [orNone_of_false h]
    rfl

/-- What does not count as true is no secret, or one without bytes. -/
theorem exists_toSecret?_of_false (h : x.countsAsTrue v = false) :
    ∃ secret, x.toSecret? v = .ok secret ∧ ∀ s ∈ secret, s.content = [] := by
  cases x with
  | text s =>
    have hempty : (Secret.text s).isEmpty = true := by
      rw [countsAsTrue, Bool.not_eq_false'] at h
      exact h
    refine ⟨_, rfl, ?_⟩
    rintro _ ⟨⟩
    exact Secret.isEmpty_iff.mp hempty
  | sealed s =>
    have hempty : v.content s = [] := by
      rw [countsAsTrue, Bool.not_eq_false', List.isEmpty_iff] at h
      exact h
    refine ⟨_, rfl, ?_⟩
    rintro _ ⟨⟩
    rw [Vault.content_secret, hempty]
  -- any other value is asked whether it counts before it is taken for a secret
  | _ =>
    refine ⟨Option.none, ?_, ?_⟩
    · rw [toSecret?, h]
      · rfl
      · rintro _ ⟨⟩
      · rintro _ ⟨⟩
    · rintro _ ⟨⟩

end OrNone

end Value

namespace AuthInfo

/-- A description has the address and the salt of its record, each if it is there, and the number
that the record's version is read as. An empty salt is not there. -/
inductive IsRead (v : Vault) : Value → AuthInfo → Prop
  | intro {fields : List (String × Value)} {x : Value} {n : Int}
      (hversion : fields.lookup "authVersion" = some x) (hnumber : x.ReadsAs n) :
      IsRead v (.record fields)
        ⟨(fields.lookup "email").getD (.text ""), .int n, (fieldOrNone fields "salt").orNone v⟩

theorem ofFields_eq_ok_iff {v : Vault} {data : Value} {m : AuthInfo} :
    ofFields v data = .ok m ↔ IsRead v data m := by
  constructor
  · intro h
    cases data with
    | record fields =>
      cases hversion : fields.lookup "authVersion" with
      | none =>
        simp only [ofFields, Value.fields?, hversion, bind, Except.bind] at h
        cases h
      | some x =>
        cases hnumber : x.toInt with
        | error e =>
          simp only [ofFields, Value.fields?, hversion, hnumber, bind, Except.bind] at h
          cases h
        | ok n =>
          simp only [ofFields, Value.fields?, hversion, hnumber, bind, Except.bind] at h
          cases h
          exact .intro hversion (Value.toInt_eq_ok_iff.mp hnumber)
    | _ => cases h
  · rintro ⟨hversion, hnumber⟩
    have hread := Value.toInt_eq_ok_iff.mpr hnumber
    simp only [ofFields, Value.fields?, hversion, hread, bind, Except.bind]
    rfl

/-- A description that is written is read again, but for a salt that does not count. -/
theorem ofFields_toFields (v : Vault) (email : Value) (n : Int) (salt : Value) :
    ofFields v (AuthInfo.toFields ⟨email, .int n, salt⟩) =
      .ok ⟨email, .int n, salt.orNone v⟩ := by
  cases salt <;> rfl

/-- The credentials do not depend on a salt that does not count. -/
theorem derive_orNone (v : Vault) (m : AuthInfo) (password : Secret) :
    (derive { m with salt := m.salt.orNone v } password).run v = (m.derive password).run v := by
  cases h : m.salt.countsAsTrue v with
  | true => rw [Value.orNone_of_true h]
  | false =>
    obtain ⟨secret, hsecret, hempty⟩ := Value.exists_toSecret?_of_false h
    have hget (f : Vault → Vaulted SealedCredentials) : (get >>= f).run v = (f v).run v := rfl
    have hrun (m : AuthInfo) : (m.derive password).run v =
        (Vaulted.perform (Credentials.forVersion (m.authVersion.requestedAuthVersion v) password
          (m.salt.toSecret? v)) >>= SealedCredentials.keep).run v := by
      rw [derive, hget]
    have hnone : (Value.none).toSecret? v = .ok none := rfl
    -- the salt is dropped on one side, and read but found empty on the other
    rw [hrun, hrun, Value.orNone_of_false h, hnone, hsecret,
      Credentials.forVersion_of_empty _ password hempty]

/-- A salt as the field that holds it. -/
def saltValue : Option String → Value
  | none => .none
  | some s => .text s

/-- An account with a text for its address, a number for its version, and a salt or none. -/
def ofAccount (email : String) (version : Int) (salt : Option String) : AuthInfo :=
  ⟨.text email, .int version, saltValue salt⟩

theorem saltValue_injective : Function.Injective saltValue := by
  intro salt salt' h
  cases salt <;> cases salt' <;> cases h <;> rfl

theorem orNone_saltValue (v : Vault) (salt : Option String) :
    (saltValue salt).orNone v = saltValue (salt.filter fun s => !s.isEmpty) := by
  cases salt with
  | none => rfl
  | some s =>
    rw [Option.filter_some]
    change (if (!s.isEmpty) = true then Value.text s else Value.none) = _
    split <;> rfl

theorem filter_salt_eq_iff {salt : Option String} :
    salt.filter (fun s => !s.isEmpty) = salt ↔ salt ≠ some "" := by
  cases salt with
  | none => simp
  | some s =>
    rw [Option.filter_some]
    by_cases hs : s = ""
    · subst hs
      simp
    · simp [hs]

theorem ofAccount_eq_iff {email : String} {version : Int} {salt salt' : Option String} :
    ofAccount email version salt = ofAccount email version salt' ↔ salt = salt' := by
  constructor
  · intro h
    exact saltValue_injective (congrArg AuthInfo.salt h)
  · exact congrArg (ofAccount email version)

/-- Equality of accounts, as it is computed, is equality. -/
theorem same_ofAccount_iff (v : Vault) {email : String} {version : Int}
    {salt salt' : Option String} :
    same v (ofAccount email version salt) (ofAccount email version salt') = true ↔
      salt = salt' := by
  have hemail : (Value.text email).same v (.text email) = true := by
    rw [Value.same.eq_def]
    exact beq_self_eq_true email
  have hversion : (Value.int version).same v (.int version) = true :=
    (Value.same_int_iff v (.int version) version).mpr rfl
  have hsalt : (saltValue salt).same v (saltValue salt') = true ↔ salt = salt' := by
    cases salt <;> cases salt' <;> simp [saltValue, Value.same.eq_def, Value.number?]
  unfold same ofAccount
  rw [hemail, hversion, Bool.true_and, Bool.true_and, hsalt]

/-- An account that is written is read again, and it is the same account unless its salt is empty;
with an empty salt it has none afterwards. Either way a password gives the same credentials, or
fails in the same way. What is read of a record, whose version may be any value that stands for a
number, is read again from its own record form. -/
theorem record_form_loses_only_empty_salt (v : Vault) :
    (∀ (email : String) (version : Int) (salt : Option String),
      ∃ m, ofFields v (ofAccount email version salt).toFields = .ok m ∧
        (m = ofAccount email version salt ↔ salt ≠ some "") ∧
        (m.same v (ofAccount email version salt) = true ↔ salt ≠ some "") ∧
        (salt = some "" → m = ofAccount email version none) ∧
        ∀ password,
          (m.derive password).run v = ((ofAccount email version salt).derive password).run v) ∧
    (∀ data m, ofFields v data = .ok m ↔ IsRead v data m) ∧
    ∀ data m, ofFields v data = .ok m → ofFields v m.toFields = .ok m := by
  refine ⟨?_, fun data m => ofFields_eq_ok_iff, ?_⟩
  · intro email version salt
    have hread := ofFields_toFields v (.text email) version (saltValue salt)
    have hderive := derive_orNone v (ofAccount email version salt)
    rw [orNone_saltValue] at hread
    refine ⟨_, hread, ?_, ?_, ?_, ?_⟩
    · exact ofAccount_eq_iff.trans filter_salt_eq_iff
    · exact (same_ofAccount_iff v).trans filter_salt_eq_iff
    · rintro rfl
      rfl
    · intro password
      rw [← hderive password, ← orNone_saltValue v]
      rfl
  · intro data m h
    obtain ⟨hversion, hnumber⟩ := ofFields_eq_ok_iff.mp h
    rw [ofFields_toFields, Value.orNone_orNone]

/-- A version with a fraction and an empty salt: both are gone once the record has been read. -/
theorem fraction_and_empty_salt_are_dropped :
    ofFields .empty (.record [("authVersion", .float (-2.75)), ("salt", .text "")]) =
        .ok ⟨.text "", .int (-2), .none⟩ ∧
      ofFields .empty (toFields ⟨.text "", .int (-2), .none⟩) =
        .ok ⟨.text "", .int (-2), .none⟩ := by
  have hread : ofFields .empty (.record [("authVersion", .float (-2.75)), ("salt", .text "")]) =
      .ok ⟨.text "", .int (-2), .none⟩ := by rfl
  exact ⟨hread, (record_form_loses_only_empty_salt .empty).2.2 _ _ hread⟩

end AuthInfo

end SealedMetadata
