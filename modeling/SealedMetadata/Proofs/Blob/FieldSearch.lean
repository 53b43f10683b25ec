import SealedMetadata.Proofs.Blob.KeySearch
import SealedMetadata.Proofs.Blob.TextForm

/-!
Several keys tried in order on a field. Besides decrypting the field to a text and failing to
decrypt it, a key can leave bytes that are no text: in the first format a wrong key does so
whenever the padding fits by chance. That ends the search too, so a later key that decrypts the
field is not tried. Here it is settled when a search finds the text that one of its keys holds.
-/

namespace SealedMetadata.Blob

/-- The text that a field holds under a key, or why there is none. -/
def fieldReading (field : Bytes) (key : Secret) : Except Failure String :=
  match ofField field with
  | .error e => .error e
  | .ok blob =>
    match reading blob key with
    | .error e => .error e
    | .ok b => plainText b

theorem result_decryptText_eq (field key : Secret) (r : RandomSource) :
    ((decryptText field key).run r).result = fieldReading field.content key :=
  result_decryptText field key r

theorem answers_decryptText (field : Secret) :
    Answers (decryptText field) (fieldReading field.content) := by
  intro key r
  rw [decryptText_eq, fieldReading]
  cases ofField field.content with
  | error e => exact ⟨_, rfl⟩
  | ok blob =>
    obtain ⟨events, hblob⟩ := answers_decrypt blob key r
    rw [Action.ofExcept_ok_bind, Action.run_bind, hblob]
    dsimp only
    cases reading blob key with
    | error e => exact ⟨_, rfl⟩
    | ok b => exact ⟨_, rfl⟩

theorem result_decryptTextWithAny (field : Secret) (keys : List Secret) (r : RandomSource) :
    ((decryptTextWithAny field keys).run r).result =
      .ok (Search.ofAnswers (fieldReading field.content) 0 keys) :=
  result_searchFrom (answers_decryptText field) 0 keys r

/-- A key decrypts a field to a text. -/
def OpensField (field key : Secret) (r : RandomSource) : Prop :=
  ∃ text, ((decryptText field key).run r).result = .ok text

/-- A key fails to decrypt a field. -/
def FailsOnField (field key : Secret) (r : RandomSource) : Prop :=
  ∃ e, ((decryptText field key).run r).result = .error e ∧ e.kind = .decryptionFailed

/-- A key decrypts a field to bytes that are no text. -/
def GarblesField (field key : Secret) (r : RandomSource) : Prop :=
  ((decryptText field key).run r).result = .error (.malformed .contentNotUtf8)

/-- A search among keys finds a text in a field. -/
def FindsText (field : Secret) (keys : List Secret) (r : RandomSource) : Prop :=
  ∃ tried text, ((decryptTextWithAny field keys).run r).result = .ok ⟨tried, .ok text⟩

variable {field : Secret} {keys : List Secret} {r : RandomSource}

theorem endsSearch_of_opens {key : Secret} (h : OpensField field key r) :
    endsSearch (fieldReading field.content key) = true := by
  obtain ⟨text, htext⟩ := h
  rw [result_decryptText_eq] at htext
  rw [htext]
  rfl

theorem endsSearch_of_garbles {key : Secret} (h : GarblesField field key r) :
    endsSearch (fieldReading field.content key) = true := by
  rw [GarblesField, result_decryptText_eq] at h
  rw [h]
  rfl

theorem plainText_cases (b : Bytes) :
    (∃ text, plainText b = .ok text) ∨ plainText b = .error (.malformed .contentNotUtf8) := by
  rw [plainText]
  cases Utf8.decode? b with
  | none => exact Or.inr rfl
  | some text => exact Or.inl ⟨text, rfl⟩

theorem kind_of_ofField {field : Bytes} {e : Failure} (h : ofField field = .error e) :
    e.kind ∈ formKinds := by
  rw [ofField] at h
  split at h
  · split at h
    · cases h
    · cases h
      decide
  · cases h

theorem kind_of_fieldReading {field : Bytes} {key : Secret} {e : Failure}
    (h : fieldReading field key = .error e) : e.kind ∈ formKinds ∨ e.kind = .decryptionFailed := by
  unfold fieldReading at h
  split at h
  next e' hblob =>
    cases h
    exact Or.inl (kind_of_ofField hblob)
  next blob hblob =>
    split at h
    next e' hbytes =>
      cases h
      rw [eq_failureOf hbytes]
      exact kind_failureOf blob
    next b hbytes =>
      rcases plainText_cases b with ⟨text, htext⟩ | hgarbled
      · rw [htext] at h
        cases h
      · rw [hgarbled] at h
        cases h
        exact Or.inl (by decide)

theorem isOwn_of_fieldReading {field : Bytes} {key : Secret} {e : Failure}
    (h : fieldReading field key = .error e) : e.kind.isOwn = true := by
  have hall : ∀ k ∈ formKinds, k.isOwn = true := by
    decide
  rcases kind_of_fieldReading h with hform | hdecryption
  · exact hall e.kind hform
  · rw [hdecryption]
    decide

theorem endsSearch_eq_false_iff {key : Secret} :
    endsSearch (fieldReading field.content key) = false ↔ FailsOnField field key r := by
  rw [FailsOnField, result_decryptText_eq]
  constructor
  · intro h
    cases hanswer : fieldReading field.content key with
    | ok text =>
      rw [hanswer] at h
      cases h
    | error e =>
      refine ⟨e, rfl, (kind_of_fieldReading hanswer).resolve_left ?_⟩
      intro hform
      rw [hanswer, endsSearch, isDecryption_of_formKinds hform] at h
      cases h
  · rintro ⟨e, he, hkind⟩
    rw [he, endsSearch, isDecryption_of_kind hkind]
    rfl

theorem exists_of_fieldReading_ok {field : Bytes} {key : Secret} {text : String}
    (h : fieldReading field key = .ok text) :
    ∃ blob b, ofField field = .ok blob ∧ reading blob key = .ok b ∧ plainText b = .ok text := by
  unfold fieldReading at h
  split at h
  next => cases h
  next blob hblob =>
    split at h
    next => cases h
    next b hbytes => exact ⟨blob, b, hblob, hbytes, h⟩

/-- Where one key opens a field, every key opens it, or garbles it, or fails to decrypt it. -/
theorem cases_of_opens {opener : Secret} (h : OpensField field opener r) (key : Secret) :
    OpensField field key r ∨ GarblesField field key r ∨ FailsOnField field key r := by
  obtain ⟨text, htext⟩ := h
  rw [result_decryptText_eq] at htext
  obtain ⟨blob, b₀, hblob, hopener, -⟩ := exists_of_fieldReading_ok htext
  simp only [OpensField, GarblesField, FailsOnField, result_decryptText_eq, fieldReading, hblob]
  cases hkey : reading blob key with
  | error e =>
    refine Or.inr (Or.inr ⟨e, rfl, ?_⟩)
    rw [eq_failureOf hkey]
    exact kind_failureOf_of_reading_ok hopener
  | ok b =>
    rcases plainText_cases b with hplain | hgarbled
    · exact Or.inl hplain
    · exact Or.inr (Or.inl hgarbled)

theorem findsText_iff : FindsText field keys r ↔
    ∃ key, keys.find? (fun key => endsSearch (fieldReading field.content key)) = some key ∧
      OpensField field key r := by
  simp only [FindsText, OpensField, result_decryptTextWithAny, result_decryptText_eq,
    Except.ok.injEq]
  rw [exists_comm]
  simp only [Search.exists_ofAnswers_eq_iff]
  constructor
  · rintro ⟨text, key, hkey, htext⟩
    exact ⟨key, hkey, text, htext⟩
  · rintro ⟨key, hkey, text, htext⟩
    exact ⟨text, key, hkey, htext⟩

theorem findsText_iff_append : FindsText field keys r ↔
    ∃ front key back, keys = front ++ key :: back ∧ OpensField field key r ∧
      ∀ k ∈ front, FailsOnField field k r := by
  rw [findsText_iff]
  constructor
  · rintro ⟨key, hfind, hopens⟩
    obtain ⟨-, front, back, hkeys, hfront⟩ := List.find?_eq_some_iff_append.mp hfind
    refine ⟨front, key, back, hkeys, hopens, ?_⟩
    intro k hk
    rw [← endsSearch_eq_false_iff]
    simpa using hfront k hk
  · rintro ⟨front, key, back, hkeys, hopens, hfront⟩
    refine ⟨key, List.find?_eq_some_iff_append.mpr ⟨endsSearch_of_opens hopens, front, back,
      hkeys, ?_⟩, hopens⟩
    intro k hk
    rw [endsSearch_eq_false_iff.mpr (hfront k hk)]
    rfl

/-- Every key that garbles the field stands behind a key that opens it, or before none. -/
def GarblersBehind (field : Secret) (keys : List Secret) (r : RandomSource) : Prop :=
  ∀ front key back, keys = front ++ key :: back → GarblesField field key r →
    (∃ k ∈ back, OpensField field k r) → ∃ k ∈ front, OpensField field k r

theorem not_opens_of_garbles {key : Secret} (h : GarblesField field key r) :
    ¬ OpensField field key r := by
  rintro ⟨text, htext⟩
  rw [h] at htext
  cases htext

theorem findsText_of_garblersBehind (hbehind : GarblersBehind field keys r)
    (hopens : ∃ key ∈ keys, OpensField field key r) : FindsText field keys r := by
  obtain ⟨opener, hmem, hopener⟩ := hopens
  rw [findsText_iff]
  cases hfind : keys.find? (fun key => endsSearch (fieldReading field.content key)) with
  | none => exact absurd (endsSearch_of_opens hopener) (List.find?_eq_none.mp hfind opener hmem)
  | some key =>
    refine ⟨key, rfl, ?_⟩
    obtain ⟨hends, front, back, rfl, hfront⟩ := List.find?_eq_some_iff_append.mp hfind
    rcases cases_of_opens hopener key with hkey | hgarbles | hfails
    · exact hkey
    · -- the opener does not stand before the garbler, so one would have to, by `hbehind`
      have hnot : ∀ k ∈ front, ¬ OpensField field k r := by
        intro k hk hopens
        have hk' := hfront k hk
        rw [endsSearch_of_opens hopens] at hk'
        cases hk'
      have hback : opener ∈ back := by
        rcases List.mem_append.mp hmem with hfront' | hrest
        · exact absurd hopener (hnot opener hfront')
        · rcases List.mem_cons.mp hrest with rfl | hback
          · exact absurd hopener (not_opens_of_garbles hgarbles)
          · exact hback
      obtain ⟨k, hk, hkopens⟩ := hbehind front key back rfl hgarbles ⟨opener, hback, hopener⟩
      exact absurd hkopens (hnot k hk)
    · rw [endsSearch_eq_false_iff.mpr hfails] at hends
      cases hends

theorem garblersBehind_of_findsText (hfinds : FindsText field keys r) :
    GarblersBehind field keys r := by
  rintro front garbler back rfl hgarbles -
  obtain ⟨key, hfind, hopens⟩ := findsText_iff.mp hfinds
  have hends : (garbler :: back).find? (fun key => endsSearch (fieldReading field.content key)) =
      some garbler := List.find?_cons_of_pos (endsSearch_of_garbles hgarbles)
  rw [List.find?_append, hends] at hfind
  cases hfront : front.find? (fun key => endsSearch (fieldReading field.content key)) with
  | none =>
    rw [hfront, Option.none_or] at hfind
    rw [← Option.some.inj hfind] at hopens
    exact absurd hopens (not_opens_of_garbles hgarbles)
  | some k =>
    rw [hfront, Option.some_or] at hfind
    rw [← Option.some.inj hfind] at hopens
    exact ⟨k, List.mem_of_find?_eq_some hfront, hopens⟩

/-- A search finds a text exactly where a key opens the field and all keys before it fail to
decrypt. So it misses a text that one of its keys holds exactly where a key that garbles the field
stands before all that open it. -/
theorem text_found_unless_garbled_before (field : Secret) (keys : List Secret)
    (r : RandomSource) :
    (FindsText field keys r ↔ ∃ front key back, keys = front ++ key :: back ∧
      OpensField field key r ∧ ∀ k ∈ front, FailsOnField field k r) ∧
    ((FindsText field keys r ↔ ∃ key ∈ keys, OpensField field key r) ↔
      GarblersBehind field keys r) := by
  refine ⟨findsText_iff_append, ?_, ?_⟩
  · intro hlaw front garbler back hkeys hgarbles hback
    have hopens : ∃ key ∈ keys, OpensField field key r := by
      obtain ⟨k, hk, hkopens⟩ := hback
      exact ⟨k, by rw [hkeys]; exact List.mem_append_right _ (List.mem_cons_of_mem _ hk), hkopens⟩
    exact garblersBehind_of_findsText (hlaw.mpr hopens) front garbler back hkeys hgarbles hback
  · intro hbehind
    refine ⟨?_, findsText_of_garblersBehind hbehind⟩
    intro hfinds
    obtain ⟨front, key, back, hkeys, hopens, -⟩ := findsText_iff_append.mp hfinds
    exact ⟨key, by rw [hkeys]; exact List.mem_append_right _ List.mem_cons_self, hopens⟩

/-- The text form of `emptyTextBlob`. -/
def emptyTextField : Secret := .text "U2FsdGVkX18HBwcHBwcHByyItST+FDjzxvtxknjQiEA="

set_option maxRecDepth 8000 in
/-- The right key first: a later key that garbles the field does no harm. -/
theorem right_key_first_finds_text :
    OpensField emptyTextField (.text "key") (.cycle []) ∧
      GarblesField emptyTextField (.text "5") (.cycle []) ∧
      FindsText emptyTextField [.text "key", .text "5"] (.cycle []) := by
  have hopens : OpensField emptyTextField (.text "key") (.cycle []) := ⟨"", rfl⟩
  have hgarbles : GarblesField emptyTextField (.text "5") (.cycle []) := rfl
  refine ⟨hopens, hgarbles, ?_⟩
  rw [(text_found_unless_garbled_before _ _ _).1]
  exact ⟨[], .text "key", [.text "5"], rfl, hopens, by simp⟩

set_option maxRecDepth 8000 in
/-- The right key last: the padding fits by chance under the key before it, and the search ends
there, although the right key decrypts the field. -/
theorem chance_padding_hides_text :
    ((decryptText emptyTextField (.text "key")).run (.cycle [])).result = .ok "" ∧
      ((decryptTextWithAny emptyTextField [.text "5", .text "key"]).run (.cycle [])).result =
        .ok ⟨1, .error (.malformed .contentNotUtf8)⟩ := by
  constructor
  · rfl
  · rfl

end SealedMetadata.Blob
