import Mathlib.Data.List.Forall2
import SealedMetadata.Proofs.Secret.SameContent
import SealedMetadata.Proofs.Session.Growth

/-!
Secrets as arguments. A text, bytes and a sealed value can hold the same bytes, and what reads one
of them as a secret finds the same content as in the others. Two operations agree if they come to
the same in a vault and in whatever grows from it; the rules here carry agreement past the reading
of secrets, keys and fields.
-/

namespace SealedMetadata

namespace Value

variable {v w : Vault} {b : Bytes} {x y : Value}

/-- A value that holds some bytes: as a text, openly, or in a buffer that is there. -/
inductive Holds (v : Vault) : Bytes → Value → Prop
  | text (s : String) : Holds v (Utf8.encode s) (.text s)
  | bytes (b : Bytes) : Holds v b (.bytes b)
  | sealed {s : Sealed} (hs : s.slot < v.buffers.size) : Holds v (v.content s) (.sealed s)

/-- A value that holds some bytes, or none in the place of no bytes. -/
def Fills (v : Vault) (b : Bytes) (x : Value) : Prop := x.Holds v b ∨ x = .none ∧ b = []

theorem Holds.grown (h : Holds v b x) (hw : v.Grown w) : Holds w b x := by
  cases h with
  | text s => exact .text s
  | bytes b => exact .bytes b
  | @sealed s hs =>
    rw [← hw.content_eq hs]
    exact .sealed (hs.trans_le hw.size_le)

theorem Holds.exists_toSecret (h : Holds v b x) (container : String) :
    ∃ s, x.toSecret v container = .ok s ∧ s.content = b := by
  cases h with
  | text s => exact ⟨_, rfl, rfl⟩
  | bytes b => exact ⟨_, rfl, rfl⟩
  | sealed hs => exact ⟨_, rfl, Vault.content_secret v _⟩

theorem Fills.grown (h : Fills v b x) (hw : v.Grown w) : Fills w b x :=
  h.imp (fun h => h.grown hw) id

theorem Fills.exists_toSecret? (h : Fills v b x) :
    ∃ s, x.toSecret? v = .ok s ∧ Secret.contentOf s = b := by
  obtain h | ⟨rfl, rfl⟩ := h
  -- bytes are asked whether there are any, and without any they are no secret
  · cases h with
    | text s => exact ⟨_, rfl, rfl⟩
    | sealed hs => exact ⟨_, rfl, Vault.content_secret v _⟩
    | bytes b =>
      cases b with
      | nil => exact ⟨_, rfl, rfl⟩
      | cons c rest => exact ⟨_, rfl, rfl⟩
  · exact ⟨_, rfl, rfl⟩

/-- Two values that hold the same bytes. -/
def Interchangeable (v : Vault) (x y : Value) : Prop := ∃ b, x.Holds v b ∧ y.Holds v b

theorem Interchangeable.toSecret_map (h : Interchangeable v x y) (hw : v.Grown w)
    (container : String) :
    (x.toSecret w container).map Secret.content = (y.toSecret w container).map Secret.content := by
  obtain ⟨b, hx, hy⟩ := h
  obtain ⟨s, hs, hcontent⟩ := (hx.grown hw).exists_toSecret container
  obtain ⟨t, ht, hcontent'⟩ := (hy.grown hw).exists_toSecret container
  rw [hs, ht, Except.map, Except.map, hcontent, hcontent']

end Value

namespace Vaulted

variable {α β : Type} {v : Vault}

/-- Failures are passed on, so that only the results of the first look are compared. -/
theorem act_inspect_congr {γ : Type} {φ : α → γ} {g g' : Vault → Except Failure α}
    {f f' : α → Vaulted β} {r : RandomSource} (h : (g v).map φ = (g' v).map φ)
    (hff' : ∀ a b, φ a = φ b → (f a).act v r = (f' b).act v r) :
    (inspect g >>= f).act v r = (inspect g' >>= f').act v r := by
  rw [act_inspect_bind, act_inspect_bind]
  cases hx : g v with
  | error e =>
    cases hy : g' v with
    | error e' =>
      rw [hx, hy] at h
      rw [Except.error.inj h]
    | ok b =>
      rw [hx, hy] at h
      cases h
  | ok a =>
    cases hy : g' v with
    | error e =>
      rw [hx, hy] at h
      cases h
    | ok b =>
      rw [hx, hy] at h
      exact hff' a b (Except.ok.inj h)

/-- Two operations that come to the same in a vault, and in whatever it grows to. -/
def Agree (v : Vault) (x y : Vaulted α) : Prop := ∀ w, v.Grown w → ∀ r, x.act w r = y.act w r

@[refl] theorem Agree.refl (x : Vaulted α) : Agree v x x := fun _ _ _ => rfl

theorem Agree.after (x : Vaulted α) [hx : Has OnlyAdds x] {f g : α → Vaulted β}
    (hfg : ∀ a, Agree v (f a) (g a)) : Agree v (x >>= f) (x >>= g) := by
  intro w hw r
  rw [act_bind, act_bind]
  cases (x.act w r).1.result with
  | error e => rfl
  | ok a =>
    -- what follows runs in the vault that the first operation leaves, which has only grown
    have hgrown : v.Grown (x.left w r) := hw.trans (hx.holds w r)
    dsimp only
    rw [hfg a _ hgrown]

theorem Agree.run_eq {x y : Vaulted α} (h : Agree v x y) : x.run v = y.run v := by
  ext1 r
  rw [run_run, run_run, left, left, h v (Vault.Grown.refl v) r]

/-- An operation that is over at once, whatever the random source. -/
theorem act_of_run_eq_pure {x : Vaulted α} {w : Vault} {a : α} (h : x.run v = pure (a, w))
    (r : RandomSource) : x.act v r = (⟨.ok a, [], r⟩, w) := by
  have hrun : (x.run v).run r = ⟨.ok (a, w), [], r⟩ := by
    rw [h, Action.run_pure]
  rw [run_run, left] at hrun
  generalize x.act v r = o at hrun ⊢
  rcases o with ⟨⟨_ | _, events, source⟩, u⟩
  · cases hrun
  · cases hrun
    rfl

end Vaulted

namespace Session

open Vaulted (Agree Has OnlyAdds)

variable {names : Names} {v w : Vault} {α : Type}

/-- An argument that is read as a value at once, in whatever vault. -/
def Arg.Reads (names : Names) (a : Arg) (x : Value) : Prop :=
  ∀ v, (a.evalValue names).run v = pure (x, v)

/-- An argument that may be absent and is read at once. -/
def ReadsOption (names : Names) (a : Option Arg) (x : Value) : Prop :=
  ∀ v, (evalOption names a).run v = pure (x, v)

/-- Two arguments that are the same, or hold the same bytes. -/
inductive SameSecret (names : Names) (v : Vault) : Arg → Arg → Prop
  | same (a : Arg) : SameSecret names v a a
  | swapped {a b : Arg} {x y : Value} (ha : a.Reads names x) (hb : b.Reads names y)
      (h : x.Interchangeable v y) : SameSecret names v a b

/-- Two lists of keys that are the same, or hold the same bytes key by key. -/
inductive SameKeys (names : Names) (v : Vault) : Arg → Arg → Prop
  | same (a : Arg) : SameKeys names v a a
  | swapped {a b : Arg} {xs ys : List Value} (ha : a.Reads names (.list xs))
      (hb : b.Reads names (.list ys))
      (h : List.Forall₂ (fun x y => x = y ∨ x.Interchangeable v y) xs ys) : SameKeys names v a b

/-- Two arguments for a secret that may be absent: they are the same, or hold the same bytes, or
neither holds any. -/
inductive SameField (names : Names) (v : Vault) : Option Arg → Option Arg → Prop
  | same (a : Option Arg) : SameField names v a a
  | swapped {a b : Option Arg} {x y : Value} {bytes : Bytes} (ha : ReadsOption names a x)
      (hb : ReadsOption names b y) (hx : x.Fills v bytes) (hy : y.Fills v bytes) :
      SameField names v a b

theorem act_evalSecret_bind {a : Arg} {x : Value} (ha : a.Reads names x) (f : Secret → Vaulted α)
    (w : Vault) (r : RandomSource) : (a.evalSecret names >>= f).act w r =
      (Vaulted.inspect (fun v => x.toSecret v "bytes") >>= f).act w r := by
  rw [Arg.evalSecret, bind_assoc,
    Vaulted.act_bind_of_silent _ (Vaulted.act_of_run_eq_pure (ha w) r)]

theorem agree_evalSecret {a b : Arg} (h : SameSecret names v a b) {f g : Secret → Vaulted α}
    (hfg : ∀ s t : Secret, s.content = t.content → Agree v (f s) (g t)) :
    Agree v (a.evalSecret names >>= f) (b.evalSecret names >>= g) := by
  cases h with
  | same => exact Agree.after _ fun s => hfg s s rfl
  | swapped ha hb h =>
    intro w hw r
    rw [act_evalSecret_bind ha, act_evalSecret_bind hb]
    apply Vaulted.act_inspect_congr (h.toSecret_map hw "bytes")
    intro s t hst
    exact hfg s t hst w hw r

/-- The values of a list as secrets. -/
def secretsOf (w : Vault) (xs : List Value) : Except Failure (List Secret) :=
  xs.mapM fun x => x.toSecret w "bytes"

theorem act_evalSecrets_bind {a : Arg} {xs : List Value} (ha : a.Reads names (.list xs))
    (f : List Secret → Vaulted α) (w : Vault) (r : RandomSource) :
    (a.evalSecrets names >>= f).act w r =
      (Vaulted.inspect (fun v => secretsOf v xs) >>= f).act w r := by
  rw [Arg.evalSecrets, bind_assoc,
    Vaulted.act_bind_of_silent _ (Vaulted.act_of_run_eq_pure (ha w) r)]
  rfl

/-- Keys are read one after another, and the first that is no secret fails them all. -/
theorem map_secretsOf (w : Vault) (xs : List Value) :
    (secretsOf w xs).map (List.map Secret.content) =
      (xs.map fun x => (x.toSecret w "bytes").map Secret.content).mapM id := by
  induction xs with
  | nil => rfl
  | cons x xs ih =>
    -- the contents alone decide what comes of the first key, and then of the others
    rw [secretsOf] at ih ⊢
    rw [List.mapM_cons, List.map_cons, List.mapM_cons, ← ih]
    cases x.toSecret w "bytes" with
    | error e => rfl
    | ok s =>
      cases (xs.mapM fun x => x.toSecret w "bytes" : Except Failure (List Secret)) <;> rfl

theorem secretsOf_map {xs ys : List Value} (hw : v.Grown w)
    (h : List.Forall₂ (fun x y => x = y ∨ Value.Interchangeable v x y) xs ys) :
    (secretsOf w xs).map (List.map Secret.content) =
      (secretsOf w ys).map (List.map Secret.content) := by
  have hread : (xs.map fun x => (x.toSecret w "bytes").map Secret.content) =
      ys.map fun y => (y.toSecret w "bytes").map Secret.content := by
    induction h with
    | nil => rfl
    | cons hfirst _ ih =>
      rw [List.map_cons, List.map_cons, ih]
      obtain rfl | hfirst := hfirst
      · rfl
      · rw [hfirst.toSecret_map hw]
  rw [map_secretsOf, map_secretsOf, hread]

theorem agree_evalSecrets {a b : Arg} (h : SameKeys names v a b) {f g : List Secret → Vaulted α}
    (hfg : ∀ ss ts : List Secret, ss.map Secret.content = ts.map Secret.content →
      Agree v (f ss) (g ts)) :
    Agree v (a.evalSecrets names >>= f) (b.evalSecrets names >>= g) := by
  cases h with
  | same => exact Agree.after _ fun ss => hfg ss ss rfl
  | swapped ha hb h =>
    intro w hw r
    rw [act_evalSecrets_bind ha, act_evalSecrets_bind hb]
    apply Vaulted.act_inspect_congr (secretsOf_map hw h)
    intro ss ts hst
    exact hfg ss ts hst w hw r

theorem toSecret?_map {x y : Value} {bytes : Bytes} (hx : x.Fills v bytes) (hy : y.Fills v bytes)
    (hw : v.Grown w) :
    (x.toSecret? w).map Secret.contentOf = (y.toSecret? w).map Secret.contentOf := by
  obtain ⟨s, hs, hcontent⟩ := (hx.grown hw).exists_toSecret?
  obtain ⟨t, ht, hcontent'⟩ := (hy.grown hw).exists_toSecret?
  rw [hs, ht, Except.map, Except.map, hcontent, hcontent']

/-- Whoever reads the two values as secrets later finds the same content. -/
theorem agree_evalOption {a b : Option Arg} (h : SameField names v a b) {f g : Value → Vaulted α}
    (hfg : ∀ x y : Value, (∀ w, v.Grown w →
      (x.toSecret? w).map Secret.contentOf = (y.toSecret? w).map Secret.contentOf) →
      Agree v (f x) (g y)) :
    Agree v (evalOption names a >>= f) (evalOption names b >>= g) := by
  cases h with
  | same => exact Agree.after _ fun x => hfg x x fun _ _ => rfl
  | @swapped _ x y bytes ha hb hx hy =>
    intro w hw r
    rw [Vaulted.act_bind_of_silent _ (Vaulted.act_of_run_eq_pure (ha w) r),
      Vaulted.act_bind_of_silent _ (Vaulted.act_of_run_eq_pure (hb w) r)]
    exact hfg x y (fun u hu => toSecret?_map hx hy hu) w hw r

theorem agree_evalSecret? {a b : Option Arg} (h : SameField names v a b)
    {f g : Option Secret → Vaulted α}
    (hfg : ∀ s t, Secret.contentOf s = Secret.contentOf t → Agree v (f s) (g t)) :
    Agree v (evalSecret? names a >>= f) (evalSecret? names b >>= g) := by
  rw [evalSecret?, evalSecret?, bind_assoc, bind_assoc]
  refine agree_evalOption h fun x y hxy => ?_
  intro w hw r
  apply Vaulted.act_inspect_congr (hxy w hw)
  intro s t hst
  exact hfg s t hst w hw r

end Session

end SealedMetadata
