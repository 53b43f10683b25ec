import SealedMetadata.Payload.Login
import SealedMetadata.Proofs.Account.SealedFields
import SealedMetadata.Proofs.Blob.TextForm
import SealedMetadata.Proofs.Text.Pieces

/-!
The set of master keys as a codec. Keys of which every one is a text without a bar are joined and
encrypted, and come back in order; only the empty set comes back as something else, a single
empty key. In the other direction each text that a field holds is a set, and that set can be
encrypted again.
-/

namespace SealedMetadata.MasterKeys

/-- A key is the bytes of a text. -/
def IsText (key : Secret) : Prop := ∃ t, Utf8.encode t = key.content

/-- A key is the bytes of a text with a bar. -/
def HoldsBar (key : Secret) : Prop :=
  ∃ t : String, Utf8.encode t = key.content ∧ separator ∈ t.toList

/-- A version that encryption knows. -/
def Supported (requested : RequestedVersion) : Prop := ∃ v, Version.ofRequest requested = .ok v

/-- One text for a list of them, with bars between. -/
def joined (ts : List String) : String :=
  String.ofList (Text.join separator (ts.map String.toList))

theorem map_toList_keysIn (t : String) :
    (keysIn t).map String.toList = Text.split separator t.toList := by
  rw [keysIn, List.map_map]
  exact (List.map_congr_left fun cs _ => String.toList_ofList).trans (List.map_id _)

theorem keysIn_joined {ts : List String} (hne : ts ≠ []) (hbar : ∀ t ∈ ts, separator ∉ t.toList) :
    keysIn (joined ts) = ts := by
  have hpieces : ∀ piece ∈ ts.map String.toList, separator ∉ piece := by
    intro piece hpiece
    obtain ⟨t, ht, rfl⟩ := List.mem_map.mp hpiece
    exact hbar t ht
  have hne' : ts.map String.toList ≠ [] := fun h => hne (List.map_eq_nil_iff.mp h)
  rw [keysIn, joined, String.toList_ofList, Text.split_join hne' hpieces, List.map_map]
  exact (List.map_congr_left fun t _ => String.ofList_toList).trans (List.map_id _)

theorem joined_keysIn (t : String) : joined (keysIn t) = t := by
  rw [joined, map_toList_keysIn, Text.join_split, String.ofList_toList]

theorem intercalate_keysIn (t : String) : "|".intercalate (keysIn t) = t := by
  apply String.toList_inj.mp
  rw [String.toList_intercalate, map_toList_keysIn]
  exact (Text.join_eq_intercalate separator _).symm.trans (Text.join_split separator t.toList)

theorem length_keysIn (t : String) : (keysIn t).length = t.toList.count separator + 1 := by
  rw [keysIn, List.length_map, Text.length_split]

theorem not_mem_of_mem_keysIn {t k : String} (h : k ∈ keysIn t) : separator ∉ k.toList := by
  have hk : k.toList ∈ (keysIn t).map String.toList := List.mem_map_of_mem h
  rw [map_toList_keysIn] at hk
  exact Text.not_mem_of_mem_split hk

theorem exists_texts_iff {keys : List Secret} :
    (∃ ts : List String, ts.map Utf8.encode = keys.map Secret.content) ↔ ∀ k ∈ keys, IsText k := by
  induction keys with
  | nil => exact ⟨fun _ => List.forall_mem_nil _, fun _ => ⟨[], rfl⟩⟩
  | cons k keys ih =>
    rw [List.forall_mem_cons, ← ih]
    constructor
    · rintro ⟨_ | ⟨t, ts⟩, h⟩
      · cases h
      · exact ⟨⟨t, (List.cons.inj h).1⟩, ts, (List.cons.inj h).2⟩
    · rintro ⟨⟨t, ht⟩, ts, hts⟩
      exact ⟨t :: ts, by rw [List.map_cons, List.map_cons, ht, hts]⟩

theorem texts_of_encode {keys : List Secret} {ts : List String}
    (h : ts.map Utf8.encode = keys.map Secret.content) : texts keys = .ok ts := by
  induction keys generalizing ts with
  | nil =>
    rw [List.map_eq_nil_iff.mp h]
    rfl
  | cons k keys ih =>
    cases ts with
    | nil => cases h
    | cons t ts =>
      obtain ⟨ht, hts⟩ := List.cons.inj h
      have hrest := ih hts
      rw [texts] at hrest
      rw [texts, List.mapM_cons, hrest, Secret.text?_eq, ← ht, Utf8.decode?_encode]
      rfl

theorem texts_of_not_text {keys : List Secret} (h : ∃ k ∈ keys, ¬ IsText k) :
    texts keys = .error (.malformed .masterKeyNotUtf8) := by
  induction keys with
  | nil =>
    obtain ⟨k, hk, -⟩ := h
    cases hk
  | cons k keys ih =>
    rw [texts, List.mapM_cons, Secret.text?_eq]
    cases hk : Utf8.decode? k.content with
    | none => rfl
    | some t =>
      -- the first key is a text, so the one that is none comes later
      have hrest : ∃ k' ∈ keys, ¬ IsText k' := by
        obtain ⟨k', hmem, hk'⟩ := h
        rcases List.mem_cons.mp hmem with rfl | hmem
        · exact absurd ⟨t, Utf8.encode_of_decode?_eq_some hk⟩ hk'
        · exact ⟨k', hmem, hk'⟩
      have hfail := ih hrest
      rw [texts] at hfail
      rw [hfail]
      rfl

theorem holdsBar_iff {keys : List Secret} {ts : List String}
    (h : ts.map Utf8.encode = keys.map Secret.content) :
    (∃ k ∈ keys, HoldsBar k) ↔ ∃ t ∈ ts, separator ∈ t.toList := by
  constructor
  · rintro ⟨k, hk, t, ht, hbar⟩
    have hmem : k.content ∈ ts.map Utf8.encode := h ▸ List.mem_map_of_mem hk
    obtain ⟨t', ht', hsame⟩ := List.mem_map.mp hmem
    -- the text of a key is known from its bytes
    have heq : t' = t := by
      have hdecode := Utf8.decode?_encode t'
      rw [hsame, ← ht, Utf8.decode?_encode] at hdecode
      exact (Option.some.inj hdecode).symm
    exact ⟨t', ht', heq ▸ hbar⟩
  · rintro ⟨t, ht, hbar⟩
    have hmem : Utf8.encode t ∈ keys.map Secret.content := h ▸ List.mem_map_of_mem ht
    obtain ⟨k, hk, hsame⟩ := List.mem_map.mp hmem
    exact ⟨k, hk, t, hsame.symm, hbar⟩

theorem joinedText_of_encode {keys : List Secret} {ts : List String}
    (h : ts.map Utf8.encode = keys.map Secret.content) :
    joinedText keys = if ∃ t ∈ ts, separator ∈ t.toList
      then .error (.malformed .masterKeyWithSeparator) else .ok (joined ts) := by
  rw [joinedText, texts_of_encode h]
  simp only [bind, Except.bind, List.any_eq_true, List.contains_iff_mem, joined]

/-- What a list of keys is made into: a refusal for a key that is no text, else a refusal for a
bar, else the joined text. -/
theorem joinedText_cases (keys : List Secret) :
    ((∃ k ∈ keys, ¬ IsText k) ∧ joinedText keys = .error (.malformed .masterKeyNotUtf8)) ∨
    ((∀ k ∈ keys, IsText k) ∧ (∃ k ∈ keys, HoldsBar k) ∧
      joinedText keys = .error (.malformed .masterKeyWithSeparator)) ∨
    ((∀ k ∈ keys, IsText k) ∧ (¬ ∃ k ∈ keys, HoldsBar k) ∧
      ∃ ts : List String, ts.map Utf8.encode = keys.map Secret.content ∧
        (∀ t ∈ ts, separator ∉ t.toList) ∧ joinedText keys = .ok (joined ts)) := by
  by_cases hnot : ∃ k ∈ keys, ¬ IsText k
  · refine Or.inl ⟨hnot, ?_⟩
    rw [joinedText, texts_of_not_text hnot]
    rfl
  · have htext : ∀ k ∈ keys, IsText k := by
      intro k hk
      exact Classical.byContradiction fun h => hnot ⟨k, hk, h⟩
    obtain ⟨ts, hts⟩ := exists_texts_iff.mpr htext
    have hjoined := joinedText_of_encode hts
    by_cases hbar : ∃ t ∈ ts, separator ∈ t.toList
    · rw [if_pos hbar] at hjoined
      exact Or.inr (Or.inl ⟨htext, (holdsBar_iff hts).mpr hbar, hjoined⟩)
    · rw [if_neg hbar] at hjoined
      have hfree : ∀ t ∈ ts, separator ∉ t.toList := fun t ht hmem => hbar ⟨t, ht, hmem⟩
      exact Or.inr (Or.inr ⟨htext, mt (holdsBar_iff hts).mp hbar, ts, hts, hfree, hjoined⟩)

theorem run_encrypt_of_refused {keys : List Secret} {e : Failure} (h : joinedText keys = .error e)
    (key : Secret) (requested : RequestedVersion) (r : RandomSource) :
    (encrypt keys key requested).run r = ⟨.error e, [], r⟩ := by
  rw [encrypt, h]
  rfl

theorem encrypt_of_joined {keys : List Secret} {t : String} (h : joinedText keys = .ok t)
    (key : Secret) (requested : RequestedVersion) :
    encrypt keys key requested = Blob.encryptText (.text t) key requested := by
  rw [encrypt, h]
  rfl

theorem run_encryptText_of_unsupported {requested : RequestedVersion} (h : ¬ Supported requested)
    (text key : Secret) (r : RandomSource) :
    (Blob.encryptText text key requested).run r =
      ⟨.error (.unsupportedVersion requested.shown), [], r⟩ := by
  have hrefused : Version.ofRequest requested = .error (.unsupportedVersion requested.shown) := by
    rw [Version.ofRequest]
    split
    next hone => exact absurd ⟨.cbc, if_pos hone⟩ h
    next hone =>
      split
      next htwo => exact absurd ⟨.gcm, by rw [Version.ofRequest, if_neg hone, if_pos htwo]⟩ h
      next => rfl
  rw [Blob.encryptText_eq, Blob.encrypt_eq, hrefused]
  rfl

/-- Why a list of keys is not encrypted: a key that is no text comes first, then a bar in a key,
then the version, and a refusal leaves the random source as it was. -/
structure Refusals (keys : List Secret) (requested : RequestedVersion) (r : RandomSource)
    (o : Outcome String) : Prop where
  not_text : o.result = .error (.malformed .masterKeyNotUtf8) ↔ ∃ k ∈ keys, ¬ IsText k
  with_bar : o.result = .error (.malformed .masterKeyWithSeparator) ↔
    (∀ k ∈ keys, IsText k) ∧ ∃ k ∈ keys, HoldsBar k
  unsupported : o.result = .error (.unsupportedVersion requested.shown) ↔
    (∀ k ∈ keys, IsText k) ∧ (¬ ∃ k ∈ keys, HoldsBar k) ∧ ¬ Supported requested
  no_other : ∀ e, o.result = .error e →
    e = .malformed .masterKeyNotUtf8 ∨ e = .malformed .masterKeyWithSeparator ∨
      e = .unsupportedVersion requested.shown
  draws_nothing : ∀ e, o.result = .error e → o.source = r

theorem not_exists_of_texts {keys : List Secret} (h : ∀ k ∈ keys, IsText k) :
    ¬ ∃ k ∈ keys, ¬ IsText k := by
  rintro ⟨k, hk, hnot⟩
  exact hnot (h k hk)

theorem refusals_encrypt (keys : List Secret) (key : Secret) (requested : RequestedVersion)
    (r : RandomSource) : Refusals keys requested r ((encrypt keys key requested).run r) := by
  rcases joinedText_cases keys with ⟨hnot, hrefused⟩ | ⟨htext, hbar, hrefused⟩ |
    ⟨htext, hfree, ts, -, -, hjoined⟩
  · rw [run_encrypt_of_refused hrefused]
    exact {
      not_text := ⟨fun _ => hnot, fun _ => rfl⟩
      with_bar := ⟨fun h => (by cases h), fun h => absurd hnot (not_exists_of_texts h.1)⟩
      unsupported := ⟨fun h => (by cases h), fun h => absurd hnot (not_exists_of_texts h.1)⟩
      no_other := fun e h => Or.inl (Except.error.inj h).symm
      draws_nothing := fun _ _ => rfl }
  · rw [run_encrypt_of_refused hrefused]
    exact {
      not_text := ⟨fun h => (by cases h), fun h => absurd h (not_exists_of_texts htext)⟩
      with_bar := ⟨fun _ => ⟨htext, hbar⟩, fun _ => rfl⟩
      unsupported := ⟨fun h => (by cases h), fun h => absurd hbar h.2.1⟩
      no_other := fun e h => Or.inr (Or.inl (Except.error.inj h).symm)
      draws_nothing := fun _ _ => rfl }
  rw [encrypt_of_joined hjoined]
  by_cases hv : Supported requested
  · obtain ⟨v, hversion⟩ := hv
    obtain ⟨field, hfield, -⟩ := Blob.exists_field_of_text hversion (joined ts) key r
    have hnone : ∀ e, ((Blob.encryptText (.text (joined ts)) key requested).run r).result ≠
        .error e := by
      intro e h
      rw [hfield] at h
      cases h
    exact {
      not_text := ⟨fun h => absurd h (hnone _), fun h => absurd h (not_exists_of_texts htext)⟩
      with_bar := ⟨fun h => absurd h (hnone _), fun h => absurd h.2 hfree⟩
      unsupported := ⟨fun h => absurd h (hnone _), fun h => absurd ⟨v, hversion⟩ h.2.2⟩
      no_other := fun e h => absurd h (hnone e)
      draws_nothing := fun e h => absurd h (hnone e) }
  · rw [run_encryptText_of_unsupported hv]
    exact {
      not_text := ⟨fun h => (by cases h), fun h => absurd h (not_exists_of_texts htext)⟩
      with_bar := ⟨fun h => (by cases h), fun h => absurd h.2 hfree⟩
      unsupported := ⟨fun _ => ⟨htext, hfree, hv⟩, fun _ => rfl⟩
      no_other := fun e h => Or.inr (Or.inr (Except.error.inj h).symm)
      draws_nothing := fun _ _ => rfl }

/-- A field is read into sealed texts of these contents, into whatever vault. -/
def ReadsAs (field : Option Secret) (key : Secret) (contents : List Bytes) : Prop :=
  ∀ (v : Vault) (r : RandomSource),
    ∃ kept v', (((readSealed field key).run v).run r).result = .ok (kept, v') ∧
      (∀ s ∈ kept, s.kind = .text) ∧ kept.map v'.content = contents

theorem readsAs_of_text {field key : Secret} {t : String} (hne : field.isEmpty = false)
    (h : ∀ r, ((Blob.decryptText field key).run r).result = .ok t) :
    ReadsAs (some field) key ((keysIn t).map Utf8.encode) := by
  intro v r
  refine ⟨((v.add .text []).2.addTexts (keysIn t)).1, ((v.add .text []).2.addTexts (keysIn t)).2,
    ?_, fun s hs => Vault.kind_addTexts hs, Vault.content_addTexts _ _⟩
  rw [Vaulted.run_run, Vaulted.left, act_readSealed_some hne, h r]
  rfl

/-- The answer to a login gives the keys of its field. -/
theorem exists_decryptMasterKeys {m : LoginResponse} {key : Secret} {field : Option Secret}
    {contents : List Bytes} {v : Vault} (hfield : m.masterKeys.toSecret? v = .ok field)
    (h : ReadsAs field key contents) (r : RandomSource) :
    ∃ kept v', (((m.decryptMasterKeys key).run v).run r).result = .ok (kept, v') ∧
      (∀ s ∈ kept, s.kind = .text) ∧ kept.map v'.content = contents := by
  rw [LoginResponse.decryptMasterKeys, Vaulted.run_inspect_bind, hfield]
  exact h v r

/-- A session replies with the keys of a field. -/
theorem exists_replied {names : Session.Names} {data : Option Session.Arg} {key : Session.Arg}
    {field : Option Secret} {k : Secret} {contents : List Bytes} {v u w : Vault}
    (hdata : (Session.evalSecret? names data).run v = pure (field, u))
    (hkey : (key.evalSecret names).run u = pure (k, w)) (h : ReadsAs field k contents)
    (r : RandomSource) :
    ∃ (kept : List Sealed) (v' : Vault),
      ((((Session.BlobOperation.decryptMasterKeys data key).run names).run v).run r).result =
        .ok (.ofValue (.list (kept.map .sealed)), v') ∧
      (∀ s ∈ kept, s.kind = .text) ∧ kept.map v'.content = contents := by
  obtain ⟨kept, v', hread, hkinds, hcontents⟩ := h w r
  refine ⟨kept, v', ?_, hkinds, hcontents⟩
  rw [Session.BlobOperation.run, Vaulted.run_bind, hdata, pure_bind, Vaulted.run_bind, hkey,
    pure_bind, Vaulted.result_bind_of_ok _ hread]
  rfl

theorem isEmpty_eq_false_of_text {field key : Secret} {t : String} {r : RandomSource}
    (h : ((Blob.decryptText field key).run r).result = .ok t) : field.isEmpty = false := by
  rw [Blob.result_decryptText] at h
  rw [Secret.isEmpty_eq]
  cases hfield : field.content with
  | nil =>
    -- nothing is too short for any blob
    rw [hfield] at h
    cases h
  | cons b bs => rfl

/-- Keys that are texts without bars have a field in each supported version, which any key of the
same bytes as the last one reads into the keys of the joined text. -/
theorem exists_field_of_keys {keys : List Secret} {ts : List String}
    (hts : ts.map Utf8.encode = keys.map Secret.content) (hbar : ∀ t ∈ ts, separator ∉ t.toList)
    {requested : RequestedVersion} (hv : Supported requested) (key : Secret) (r : RandomSource) :
    ∃ field, ((encrypt keys key requested).run r).result = .ok field ∧
      ∀ key' : Secret, key'.content = key.content →
        ReadsAs (some (.text field)) key' ((keysIn (joined ts)).map Utf8.encode) := by
  have hnone : ¬ ∃ t ∈ ts, separator ∈ t.toList := by
    rintro ⟨t, ht, hmem⟩
    exact hbar t ht hmem
  have hjoined := joinedText_of_encode hts
  rw [if_neg hnone] at hjoined
  obtain ⟨v, hversion⟩ := hv
  obtain ⟨field, hfield, hne, hread⟩ := Blob.exists_field_of_text hversion (joined ts) key r
  have hnonempty : (Secret.text field).isEmpty = false := by
    rw [Secret.isEmpty, ← Bool.not_eq_true, String.isEmpty_iff]
    exact hne
  refine ⟨field, ?_, ?_⟩
  · rw [encrypt_of_joined hjoined, hfield]
  · intro key' hkey
    exact readsAs_of_text hnonempty fun r' => hread key' r' hkey

/-- Master keys go into a field and come back. Of the reasons to refuse them the first counts, and
none draws from the random source. Keys that are not refused come back in order, with the same
bytes, as long as there is one; from no keys at all comes one empty key. The other way round, the
text in a field is a set of as many keys as its bars leave room for, none of which holds a bar;
such keys, however they are held, can be encrypted again, and come back once more. So they do from
the field of a login's answer, and for the operation of a session. -/
theorem key_set_reads_back :
    (∀ (keys : List Secret) (key : Secret) (requested : RequestedVersion) (r : RandomSource),
      Refusals keys requested r ((encrypt keys key requested).run r)) ∧
    (∀ (keys : List Secret) (key : Secret) (requested : RequestedVersion) (r : RandomSource),
      (∀ k ∈ keys, IsText k) → (¬ ∃ k ∈ keys, HoldsBar k) → Supported requested →
      ∃ field, ((encrypt keys key requested).run r).result = .ok field ∧
        ∀ key' : Secret, key'.content = key.content →
          (keys ≠ [] → ReadsAs (some (.text field)) key' (keys.map Secret.content)) ∧
          (keys = [] → ReadsAs (some (.text field)) key' [[]])) ∧
    (∀ (field key : Secret) (r : RandomSource) (t : String),
      ((Blob.decryptText field key).run r).result = .ok t →
      ∃ ks : List String, ReadsAs (some field) key (ks.map Utf8.encode) ∧
        ks.length = t.toList.count separator + 1 ∧ (∀ k ∈ ks, separator ∉ k.toList) ∧
        "|".intercalate ks = t ∧
        ∀ (held : List Secret) (key₁ key₂ : Secret) (requested : RequestedVersion)
          (r₁ : RandomSource), held.map Secret.content = ks.map Utf8.encode →
          key₂.content = key₁.content → Supported requested →
          ∃ field₁, ((encrypt held key₁ requested).run r₁).result = .ok field₁ ∧
            ReadsAs (some (.text field₁)) key₂ (ks.map Utf8.encode)) ∧
    (∀ (m : LoginResponse) (key : Secret) (field : Option Secret) (contents : List Bytes)
      (v : Vault) (r : RandomSource), m.masterKeys.toSecret? v = .ok field →
      ReadsAs field key contents →
      ∃ kept v', (((m.decryptMasterKeys key).run v).run r).result = .ok (kept, v') ∧
        (∀ s ∈ kept, s.kind = .text) ∧ kept.map v'.content = contents) ∧
    (∀ (names : Session.Names) (data : Option Session.Arg) (key : Session.Arg)
      (field : Option Secret) (k : Secret) (contents : List Bytes) (v u w : Vault)
      (r : RandomSource), (Session.evalSecret? names data).run v = pure (field, u) →
      (key.evalSecret names).run u = pure (k, w) → ReadsAs field k contents →
      ∃ (kept : List Sealed) (v' : Vault),
        ((((Session.BlobOperation.decryptMasterKeys data key).run names).run v).run r).result =
          .ok (.ofValue (.list (kept.map .sealed)), v') ∧
        (∀ s ∈ kept, s.kind = .text) ∧ kept.map v'.content = contents) := by
  refine ⟨refusals_encrypt, ?_, ?_, ?_, ?_⟩
  · intro keys key requested r htext hfree hv
    obtain ⟨ts, hts⟩ := exists_texts_iff.mpr htext
    have hbar : ∀ t ∈ ts, separator ∉ t.toList := by
      intro t ht hmem
      exact hfree ((holdsBar_iff hts).mpr ⟨t, ht, hmem⟩)
    obtain ⟨field, hfield, hreads⟩ := exists_field_of_keys hts hbar hv key r
    refine ⟨field, hfield, fun key' hkey => ⟨?_, ?_⟩⟩
    -- cutting undoes joining only if there was a piece
    · intro hne
      have hts' : ts ≠ [] := by
        rintro rfl
        exact hne (List.map_eq_nil_iff.mp hts.symm)
      have h := hreads key' hkey
      rwa [keysIn_joined hts' hbar, hts] at h
    · rintro rfl
      rw [List.map_eq_nil_iff.mp hts] at hreads
      exact hreads key' hkey
  · -- the keys in a text join to that text again, so it is what is encrypted
    intro field key r t h
    have htext : ∀ r', ((Blob.decryptText field key).run r').result = .ok t := by
      intro r'
      rw [Blob.result_decryptText] at h ⊢
      exact h
    refine ⟨keysIn t, readsAs_of_text (isEmpty_eq_false_of_text h) htext, length_keysIn t,
      fun k => not_mem_of_mem_keysIn, intercalate_keysIn t, ?_⟩
    intro held key₁ key₂ requested r₁ hheld hkey hv
    obtain ⟨field₁, hfield₁, hreads⟩ :=
      exists_field_of_keys hheld.symm (fun k => not_mem_of_mem_keysIn) hv key₁ r₁
    have h₂ := hreads key₂ hkey
    rw [joined_keysIn] at h₂
    exact ⟨field₁, hfield₁, h₂⟩
  · intro m key field contents v r hfield h
    exact exists_decryptMasterKeys hfield h r
  · intro names data key field k contents v u w r hdata hkey h
    exact exists_replied hdata hkey h r

/-- A set of one key that ends in a bar, as a field. -/
def barredValue : Value := .text "U2FsdGVkX18HBwcHBwcHBwSPbD8KQdtfrY5ftjFjyzA="

def barredField : Secret := .text "U2FsdGVkX18HBwcHBwcHBwSPbD8KQdtfrY5ftjFjyzA="

/-- An answer to a login with this field. -/
def barredAnswer : LoginResponse := ⟨⟨.text, 0⟩, barredValue, .none⟩

set_option maxRecDepth 8000 in
/-- A key that is no text next to one with a bar, in an unknown version; no keys; two keys of
which one is empty; and a bar at the end of a text, which makes for an empty last key, also where
a login's answer or a session's operation has the field. -/
theorem barred_text_reads_as_two_keys :
    ((encrypt [.text "a|", .bytes [255]] (.text "key") (.ofInt 3)).run (.cycle [7])).result =
        .error (.malformed .masterKeyNotUtf8) ∧
      (∃ field, ((encrypt [] (.text "key") (.ofInt 2)).run (.cycle [7])).result = .ok field ∧
        ReadsAs (some (.text field)) (.sealedBytes [107, 101, 121]) [[]]) ∧
      (∃ field, ((encrypt [.text "", .bytes [97]] (.text "key") (.ofInt 1)).run
          (.cycle [7])).result = .ok field ∧
        ReadsAs (some (.text field)) (.text "key") [[], [97]]) ∧
      ∃ ks : List String, ReadsAs (some barredField) (.text "key") (ks.map Utf8.encode) ∧
        ks.length = 2 ∧ (∀ k ∈ ks, separator ∉ k.toList) ∧ "|".intercalate ks = "a|" ∧
        (∃ field, ((encrypt (ks.map .text) (.text "new") (.ofInt 2)).run (.cycle [7])).result =
            .ok field ∧
          ReadsAs (some (.text field)) (.text "new") (ks.map Utf8.encode)) ∧
        (∃ kept v', (((barredAnswer.decryptMasterKeys (.text "key")).run .empty).run
            (.cycle [])).result = .ok (kept, v') ∧
          kept.map v'.content = ks.map Utf8.encode) ∧
        ∃ (kept : List Sealed) (v' : Vault),
          ((((Session.BlobOperation.decryptMasterKeys (some (.value barredValue))
            (.value (.text "key"))).run []).run .empty).run (.cycle [])).result =
              .ok (.ofValue (.list (kept.map .sealed)), v') ∧
          kept.map v'.content = ks.map Utf8.encode := by
  obtain ⟨hrefusals, hkeys, hfields, hanswer, hreply⟩ := key_set_reads_back
  have hbyte : ¬ IsText (.bytes [255]) := by
    rintro ⟨t, ht⟩
    have h := Utf8.decode?_encode t
    rw [ht] at h
    cases h
  have hkey : (Secret.sealedBytes [107, 101, 121]).content = (Secret.text "key").content := by
    decide
  have hpair : ["", "a"].map Utf8.encode = [Secret.text "", .bytes [97]].map Secret.content := by
    decide
  have htext : ((Blob.decryptText barredField (.text "key")).run (.cycle [])).result =
      .ok "a|" := by
    rfl
  refine ⟨?_, ?_, ?_, ?_⟩
  · exact (hrefusals [.text "a|", .bytes [255]] (.text "key") (.ofInt 3) (.cycle [7])).not_text.mpr
      ⟨.bytes [255], List.mem_cons_of_mem _ List.mem_cons_self, hbyte⟩
  · obtain ⟨field, hfield, hreads⟩ := hkeys [] (.text "key") (.ofInt 2) (.cycle [7])
      (List.forall_mem_nil _) (fun ⟨_, h, _⟩ => by cases h) ⟨.gcm, rfl⟩
    exact ⟨field, hfield, (hreads _ hkey).2 rfl⟩
  · have hfree : ¬ ∃ k ∈ [Secret.text "", .bytes [97]], HoldsBar k := by
      rw [holdsBar_iff hpair]
      decide
    obtain ⟨field, hfield, hreads⟩ := hkeys [.text "", .bytes [97]] (.text "key") (.ofInt 1)
      (.cycle [7]) (exists_texts_iff.mp ⟨_, hpair⟩) hfree ⟨.cbc, rfl⟩
    exact ⟨field, hfield, (hreads _ rfl).1 (List.cons_ne_nil _ _)⟩
  · obtain ⟨ks, hread, hlength, hfree, hjoin, hagain⟩ :=
      hfields barredField (.text "key") (.cycle []) "a|" htext
    refine ⟨ks, hread, hlength, hfree, hjoin, ?_, ?_, ?_⟩
    · exact hagain (ks.map .text) (.text "new") (.text "new") (.ofInt 2) (.cycle [7])
        List.map_map rfl ⟨.gcm, rfl⟩
    · obtain ⟨kept, v', hresult, -, hcontents⟩ :=
        hanswer barredAnswer (.text "key") (some barredField) _ .empty (.cycle []) rfl hread
      exact ⟨kept, v', hresult, hcontents⟩
    · obtain ⟨kept, v', hresult, -, hcontents⟩ :=
        hreply [] (some (.value barredValue)) (.value (.text "key")) (some barredField)
          (.text "key") _ .empty .empty .empty (.cycle []) rfl rfl hread
      exact ⟨kept, v', hresult, hcontents⟩

end SealedMetadata.MasterKeys
