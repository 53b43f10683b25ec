import SealedMetadata.Proofs.Payload.LinkKey
import SealedMetadata.Proofs.Session.Drawing

/-!
Random bytes over whole sessions. Each step takes the bytes that its account tells off the front
of the stream, and answers alike under every source that agrees on these. So the steps of a run
read one segment of the stream after another, and no byte of it is read twice.
-/

namespace SealedMetadata

open SealedMetadata.Action (Draws)

/-- A new link key is drawn first, and what its encryption draws lies behind it. -/
theorem Link.exists_newKey_from {requested : RequestedVersion} {v : Version}
    (hv : Version.ofRequest requested = .ok v) (masterKey : Secret) (r : RandomSource) :
    ∃ t field, ((newKey masterKey requested).run r).result = .ok (t, field) ∧
      Utf8.encode t = (r.peek 32).map Alphanumeric.pick ∧
      Blob.textForm v (Blob.blobOf v masterKey none (r.advance 32) (Utf8.encode t)) =
        .ok field := by
  obtain ⟨t, hdraw, hbytes, -⟩ := Alphanumeric.exists_drawText 32 r
  obtain ⟨field, hfield, -⟩ :=
    Blob.exists_textForm v masterKey none (r.advance 32) (Utf8.encode t)
  have hencrypt : ((Blob.encryptText (.text t) masterKey requested).run (r.advance 32)).result =
      .ok field := by
    rw [Blob.result_encryptText hv]
    exact hfield
  refine ⟨t, field, ?_, hbytes, hfield⟩
  rw [newKey, Action.result_bind, hdraw]
  dsimp only
  rw [Action.result_bind, hencrypt]
  rfl

namespace LinkAdd

/-- The field of a new link's key is encrypted behind the key, if that is drawn. -/
theorem exists_keyField_from {requested : RequestedVersion} {v : Version}
    (hv : Version.ofRequest requested = .ok v) (linkKey : Option Secret) (masterKey : Secret)
    (r : RandomSource) :
    ∃ field events, (keyField linkKey masterKey requested).run r =
        ⟨.ok field, events, r.advance (keyDrawn linkKey requested)⟩ ∧
      Blob.textForm v (Blob.blobOf v masterKey none
        (r.advance (if linkKey.isNone then 32 else 0)) (keyBytes linkKey r)) = .ok field := by
  have hsource := (draws_keyField linkKey masterKey requested).source r
  obtain ⟨field, hresult, hfield⟩ : ∃ field,
      ((keyField linkKey masterKey requested).run r).result = .ok field ∧
      Blob.textForm v (Blob.blobOf v masterKey none
        (r.advance (if linkKey.isNone then 32 else 0)) (keyBytes linkKey r)) = .ok field := by
    cases linkKey with
    | none =>
      obtain ⟨t, field, hnew, hbytes, hfield⟩ := Link.exists_newKey_from hv masterKey r
      rw [hbytes] at hfield
      refine ⟨field, ?_, hfield⟩
      rw [keyField, Action.result_bind, hnew]
      rfl
    | some key =>
      obtain ⟨field, hfield, -⟩ := Blob.exists_textForm v masterKey none r key.content
      exact ⟨field, (Blob.result_encryptText hv key masterKey r).trans hfield, hfield⟩
  refine ⟨field, ((keyField linkKey masterKey requested).run r).events, ?_, hfield⟩
  rw [← hresult, ← hsource]

/-- A new link draws its key, what the encryption of that takes, and its identifier, in this
order. -/
theorem exists_new_from {apiKey : Value} {content : Bytes} {v : Vault}
    (hapi : apiKey.sealable v = .ok content) {requested : RequestedVersion} {w : Version}
    (hw : Version.ofRequest requested = .ok w) (uuid metadata parent : Value) (linkType : ItemKind)
    (masterKey : Secret) (linkKey : Option Secret) (r : RandomSource) :
    ∃ m v' field,
      (((new apiKey uuid metadata parent linkType masterKey linkKey (some requested)).run v).run
        r).result = .ok (m, v') ∧
      m.keyMetadata = .text field ∧
      Blob.textForm w (Blob.blobOf w masterKey none
        (r.advance (if linkKey.isNone then 32 else 0)) (keyBytes linkKey r)) = .ok field ∧
      m.linkUuid =
        .uuid (Uuid.ofRandomBytes ((r.advance (keyDrawn linkKey requested)).peek 16)) := by
  obtain ⟨field, events, hrun, hfield⟩ := exists_keyField_from hw linkKey masterKey r
  have hversion : (some requested).getD Settings.default.metadataVersion.request = requested := rfl
  rw [← hversion] at hrun
  exact ⟨_, _, field, result_new hapi hrun uuid metadata parent linkType, rfl, hfield, rfl⟩

end LinkAdd

namespace Session

/-- The bytes that a step draws in a state. -/
def drawnBy (st : State) (s : Step) : Nat :=
  Vaulted.told (s.operation.account st.names) st.vault st.source

/-- One step: it takes its bytes off the front of the stream, and depends on no others. -/
theorem step_of_agreeing (st : State) (s : Step) {r' : RandomSource}
    (h : r'.peek (drawnBy st s) = st.source.peek (drawnBy st s)) :
    step { st with source := r' } s =
      ⟨(step st s).answer, (step st s).events,
        { (step st s).state with source := r'.advance (drawnBy st s) }⟩ := by
  have hact := s.operation.drawsAsTold st.time st.names st.vault st.source st.source r' h
  rw [step, step, hact, Vaulted.left]
  rcases (s.operation.run st.time st.names).act st.vault st.source with ⟨⟨_ | _, events, rest⟩, w⟩
  · rfl
  · rfl

theorem source_step (st : State) (s : Step) :
    (step st s).state.source = st.source.advance (drawnBy st s) :=
  congrArg (fun done => done.state.source) (step_of_agreeing st s rfl)

/-- The bytes that a run draws. -/
def drawnByAll (st : State) : List Step → Nat
  | [] => 0
  | s :: ss => drawnBy st s + drawnByAll (step st s).state ss

/-- A whole run depends on no other bytes than the next ones that its steps draw. -/
theorem runAll_of_agreeing (st : State) (ss : List Step) {r' : RandomSource}
    (h : r'.peek (drawnByAll st ss) = st.source.peek (drawnByAll st ss)) :
    runAll { st with source := r' } ss =
      ((runAll st ss).1, { (runAll st ss).2 with source := r'.advance (drawnByAll st ss) }) := by
  induction ss generalizing st r' with
  | nil => rfl
  | cons s ss ih =>
    obtain ⟨hfirst, hrest⟩ := RandomSource.peek_eq_of_add h
    have hstep := step_of_agreeing st s hfirst
    rw [← source_step] at hrest
    have hrun := ih (step st s).state hrest
    rw [RandomSource.advance_advance] at hrun
    simp only [runAll, hstep]
    rw [hrun]
    rfl

theorem source_runAll (st : State) (ss : List Step) :
    (runAll st ss).2.source = st.source.advance (drawnByAll st ss) :=
  congrArg (fun done => done.2.source) (runAll_of_agreeing st ss rfl)

/-- What a step reads of the stream ends before that which any later step reads. -/
theorem cursor_before_later (st : State) (before : List Step) (s : Step) (between : List Step) :
    let now := (runAll st before).2
    let later := (runAll st (before ++ s :: between)).2
    later.source.stream = now.source.stream ∧
      now.source.cursor + drawnBy now s ≤ later.source.cursor := by
  intro now later
  have hlater : later.source =
      (now.source.advance (drawnBy now s)).advance (drawnByAll (step now s).state between) := by
    rw [← source_step, ← source_runAll]
    exact congrArg State.source (state_runAll_append st before (s :: between))
  rw [hlater]
  exact ⟨rfl, Nat.le_add_right _ _⟩

end Session

/-- The bytes that each part of the library draws: none where something is decrypted, derived or
read. -/
structure DrawsAsListed : Prop where
  decrypt : ∀ blob key, (Blob.decrypt blob key).Draws 0
  decryptText : ∀ field key, (Blob.decryptText field key).Draws 0
  decryptWithAny : ∀ blob keys, (Blob.decryptWithAny blob keys).Draws 0
  decryptTextWithAny : ∀ field keys, (Blob.decryptTextWithAny field keys).Draws 0
  masterKeys : ∀ field key, (MasterKeys.decrypt field key).Draws 0
  privateKey : ∀ field key, (PrivateKey.decrypt field key).Draws 0
  credentials : ∀ version password salt, (Credentials.forVersion version password salt).Draws 0
  linkKey : ∀ v (m : LinkStatus) keys, (m.decryptLinkKey v keys).Draws 0
  encrypt : ∀ text key requested salt,
    (Blob.encrypt text key requested salt).Draws (Blob.drawn requested salt)
  encryptText : ∀ text key requested,
    (Blob.encryptText text key requested).Draws (Blob.drawn requested none)
  first_version : ∀ requested salt, Version.ofRequest requested = .ok .cbc →
    Blob.drawn requested salt = if salt.map List.length = some 8 then 0 else 8
  second_version : ∀ requested salt, Version.ofRequest requested = .ok .gcm →
    Blob.drawn requested salt = 12
  unsupported_version : ∀ requested salt, ¬ MasterKeys.Supported requested →
    Blob.drawn requested salt = 0
  encryptMasterKeys : ∀ keys key requested, (∀ k ∈ keys, MasterKeys.IsText k) →
    (¬ ∃ k ∈ keys, MasterKeys.HoldsBar k) →
    (MasterKeys.encrypt keys key requested).Draws (Blob.drawn requested none)
  refused_masterKeys : ∀ keys key requested,
    (∃ k ∈ keys, ¬ MasterKeys.IsText k) ∨ (∃ k ∈ keys, MasterKeys.HoldsBar k) →
    (MasterKeys.encrypt keys key requested).Draws 0
  linkPassword : ∀ password, (Link.hashPassword password).Draws 32
  linkEdit : ∀ apiKey uuid button expiration password v,
    ((LinkEdit.new apiKey uuid button expiration password).run v).Draws 32
  newLinkKey : ∀ masterKey requested,
    (Link.newKey masterKey requested).Draws (32 + Blob.drawn requested none)
  linkAdd : ∀ apiKey uuid metadata parent linkType masterKey linkKey requested v content,
    apiKey.sealable v = .ok content → MasterKeys.Supported requested →
    ((LinkAdd.new apiKey uuid metadata parent linkType masterKey linkKey (some requested)).run
      v).Draws ((if linkKey.isNone then 32 else 0) + Blob.drawn requested none + 16)

theorem Blob.drawn_of_unsupported {requested : RequestedVersion}
    (h : ¬ MasterKeys.Supported requested) (salt : Option Bytes) : drawn requested salt = 0 := by
  rw [drawn]
  cases hv : Version.ofRequest requested with
  | error e => rfl
  | ok v => exact absurd ⟨v, hv⟩ h

theorem drawsAsListed : DrawsAsListed where
  decrypt blob key := Action.draws_zero _
  decryptText field key := Action.draws_zero _
  decryptWithAny blob keys := Action.draws_zero _
  decryptTextWithAny field keys := Action.draws_zero _
  masterKeys field key := Action.draws_zero _
  privateKey field key := Action.draws_zero _
  credentials version password salt := Action.draws_zero _
  linkKey v m keys := Action.draws_zero _
  encrypt := Blob.draws_encrypt
  encryptText := Blob.draws_encryptText
  first_version requested salt h := by
    rw [Blob.drawn, h]
    rfl
  second_version requested salt h := by
    rw [Blob.drawn, h]
    rfl
  unsupported_version requested salt h := Blob.drawn_of_unsupported h salt
  encryptMasterKeys keys key requested htext hfree := by
    rcases MasterKeys.joinedText_cases keys with
      ⟨hnot, -⟩ | ⟨-, hbar, -⟩ | ⟨-, -, ts, -, -, hjoined⟩
    · exact absurd hnot (MasterKeys.not_exists_of_texts htext)
    · exact absurd hbar hfree
    · have h := MasterKeys.draws_encrypt keys key requested
      rwa [MasterKeys.drawn, hjoined] at h
  refused_masterKeys keys key requested hrefused := by
    obtain ⟨e, he⟩ : ∃ e, MasterKeys.joinedText keys = .error e := by
      rcases MasterKeys.joinedText_cases keys with ⟨-, he⟩ | ⟨-, -, he⟩ | ⟨htext, hfree, -⟩
      · exact ⟨_, he⟩
      · exact ⟨_, he⟩
      · exact absurd hrefused (not_or.mpr ⟨MasterKeys.not_exists_of_texts htext, hfree⟩)
    have h := MasterKeys.draws_encrypt keys key requested
    rwa [MasterKeys.drawn, he] at h
  linkPassword := Link.draws_hashPassword
  linkEdit apiKey uuid button expiration password v :=
    (LinkEdit.draws_new apiKey uuid button expiration password v).run
  newLinkKey := Link.draws_newKey
  linkAdd apiKey uuid metadata parent linkType masterKey linkKey requested v content hapi
      hversion := by
    obtain ⟨w, hw⟩ := hversion
    have h :=
      (LinkAdd.draws_new apiKey uuid metadata parent linkType masterKey linkKey requested v).run
    have hcount : LinkAdd.newDrawn v apiKey linkKey requested =
        (if linkKey.isNone then 32 else 0) + Blob.drawn requested none + 16 := by
      rw [LinkAdd.newDrawn, LinkAdd.keyDrawn, hw]
      simp only [LinkAdd.idDrawn, hapi]
    rwa [hcount] at h

/-- Randomness over whole sessions. Each part of the library draws the bytes that are listed for
it, a new link in the order key, salt or nonce, identifier. Each step of a session takes the bytes
that its account tells off the front of the stream and depends on no others, and so does each
whole run. What one step reads, no later one reads again. -/
theorem Session.random_bytes_accounted :
    DrawsAsListed ∧
    (∀ masterKey requested v r, Version.ofRequest requested = .ok v →
      ∃ t field, ((Link.newKey masterKey requested).run r).result = .ok (t, field) ∧
        Utf8.encode t = (r.peek 32).map Alphanumeric.pick ∧
        Blob.textForm v (Blob.blobOf v masterKey none (r.advance 32) (Utf8.encode t)) =
          .ok field) ∧
    (∀ apiKey content v requested w uuid metadata parent linkType masterKey linkKey r,
      Value.sealable v apiKey = .ok content → Version.ofRequest requested = .ok w →
      ∃ m v' field, (((LinkAdd.new apiKey uuid metadata parent linkType masterKey linkKey
          (some requested)).run v).run r).result = .ok (m, v') ∧
        m.keyMetadata = .text field ∧
        Blob.textForm w (Blob.blobOf w masterKey none
          (r.advance (if linkKey.isNone then 32 else 0)) (LinkAdd.keyBytes linkKey r)) =
            .ok field ∧
        m.linkUuid = .uuid (Uuid.ofRandomBytes
          ((r.advance (LinkAdd.keyDrawn linkKey requested)).peek 16))) ∧
    (∀ st s r', RandomSource.peek r' (drawnBy st s) = st.source.peek (drawnBy st s) →
      step { st with source := r' } s = ⟨(step st s).answer, (step st s).events,
        { (step st s).state with source := r'.advance (drawnBy st s) }⟩) ∧
    (∀ st ss r', RandomSource.peek r' (drawnByAll st ss) = st.source.peek (drawnByAll st ss) →
      runAll { st with source := r' } ss =
        ((runAll st ss).1, { (runAll st ss).2 with source := r'.advance (drawnByAll st ss) })) ∧
    (∀ st before s between,
      let now := (runAll st before).2
      let later := (runAll st (before ++ s :: between)).2
      later.source.stream = now.source.stream ∧
        now.source.cursor + drawnBy now s ≤ later.source.cursor) := by
  refine ⟨drawsAsListed, ?_, ?_, ?_, ?_, ?_⟩
  · intro masterKey requested v r hv
    exact Link.exists_newKey_from hv masterKey r
  · intro apiKey content v requested w uuid metadata parent linkType masterKey linkKey r hapi hw
    exact LinkAdd.exists_new_from hapi hw uuid metadata parent linkType masterKey linkKey r
  · intro st s r' h
    exact step_of_agreeing st s h
  · intro st ss r' h
    exact runAll_of_agreeing st ss h
  · intro st before s between
    exact cursor_before_later st before s between

/-- Four random bytes, and a link key whose encryption is refused. -/
def Session.shortDraws : List Step :=
  [⟨.key (.randomBytes (some 4)), none, none⟩,
    ⟨.blob (.newLinkKey (.value (.text "key")) (some (.value (.int 3)))), none, none⟩]

/-- A source that leaves the pattern of sevens after thirty-six bytes. -/
def RandomSource.otherTail : RandomSource := ⟨fun i => if i < 36 then 7 else 9, 0⟩

/-- The refused encryption draws nothing besides its key, and no later byte makes a difference. -/
theorem Session.tail_makes_no_difference :
    drawnByAll (State.start "12:00:00" (.cycle [7])) shortDraws = 36 ∧
      RandomSource.otherTail.peek 36 = (RandomSource.cycle [7]).peek 36 ∧
      (runAll (State.start "12:00:00" .otherTail) shortDraws).1 =
        (runAll (State.start "12:00:00" (.cycle [7])) shortDraws).1 ∧
      4 ≤ (runAll (State.start "12:00:00" (.cycle [7])) (shortDraws.take 1)).2.source.cursor := by
  have hcount : drawnByAll (State.start "12:00:00" (.cycle [7])) shortDraws = 36 := rfl
  have hpeek : RandomSource.otherTail.peek 36 = (RandomSource.cycle [7]).peek 36 := by decide
  obtain ⟨-, -, -, -, hruns, hsegments⟩ := random_bytes_accounted
  refine ⟨hcount, hpeek, ?_, ?_⟩
  · have hrun := hruns (State.start "12:00:00" (.cycle [7])) shortDraws .otherTail
      (by rw [hcount]; exact hpeek)
    have hanswers := congrArg Prod.fst hrun
    exact hanswers
  · have hfirst := (hsegments (State.start "12:00:00" (.cycle [7])) []
      ⟨.key (.randomBytes (some 4)), none, none⟩ []).2
    exact hfirst

end SealedMetadata
