import Libdef.Traced

/-!
Outcomes: the values and the faults in which a computation may end. What a chain of computations
may end in follows from its links, and a walk through a list ends in the first fault on the way.
-/

set_option autoImplicit false

namespace Libdef

variable {α β γ ω : Type} {P : α → Prop} {P' : β → Prop} {Q Q' : Fault → Prop}

/-- Ends in a value of `P` or in a fault of `Q`. -/
def Ends (P : α → Prop) (Q : Fault → Prop) : Except Fault α → Prop
  | .ok a => P a
  | .error e => Q e

namespace Ends

theorem bind {r : Except Fault α} {f : α → Except Fault β} (hr : Ends P Q r)
    (hf : ∀ a, P a → Ends P' Q (f a)) : Ends P' Q (r >>= f) := by
  cases r with
  | error e => exact hr
  | ok a => exact hf a hr

theorem map {r : Except Fault α} {f : α → β} (hr : Ends P Q r) (hf : ∀ a, P a → P' (f a)) :
    Ends P' Q (r.map f) := by
  cases r with
  | error e => exact hr
  | ok a => exact hf a hr

theorem imp {P₂ : α → Prop} {r : Except Fault α} (hr : Ends P Q r) (hp : ∀ a, P a → P₂ a) :
    Ends P₂ Q r := by
  cases r with
  | error e => exact hr
  | ok a => exact hp a hr

theorem mapM {f : β → Except Fault α} {l : List β} (h : ∀ b ∈ l, Ends P Q (f b)) :
    Ends (fun as => ∀ a ∈ as, P a) Q (l.mapM f) := by
  induction l with
  | nil => simp [Ends, Pure.pure, Except.pure]
  | cons b l ih =>
    rw [List.mapM_cons]
    refine (h b (by simp)).bind fun a ha => ?_
    refine (ih fun x hx => h x (by simp [hx])).bind fun as has => ?_
    simp only [Ends, Pure.pure, Except.pure, List.forall_mem_cons]
    exact ⟨ha, has⟩

theorem any (r : Except Fault α) : Ends (fun _ => True) (fun _ => True) r := by
  cases r <;> trivial

theorem exists_ok {r : Except Fault α} (h : Ends P (fun _ => False) r) : ∃ a, r = .ok a ∧ P a := by
  cases r with
  | error e => exact h.elim
  | ok a => exact ⟨a, rfl, h⟩

theorem fault {r : Except Fault α} {e : Fault} (h : Ends P Q r) (he : r = .error e) : Q e := by
  subst he
  exact h

theorem of_ok {r : Except Fault α} {a : α} (h : Ends P Q r) (hr : r = .ok a) : P a := by
  subst hr
  exact h

theorem self (r : Except Fault α) : Ends (fun a => r = .ok a) (fun _ => True) r := by
  cases r <;> trivial

end Ends

/-- Two computations end alike: in values that are related by `R`, or in faults related by `S`. -/
def Alike (R : α → β → Prop) (S : Fault → Fault → Prop) : Except Fault α → Except Fault β → Prop
  | .ok a, .ok b => R a b
  | .error e, .error f => S e f
  | _, _ => False

theorem Alike.imp {R R' : α → β → Prop} {S S' : Fault → Fault → Prop} {r : Except Fault α}
    {t : Except Fault β} (h : Alike R S r t) (hr : ∀ a b, R a b → R' a b)
    (hs : ∀ e f, S e f → S' e f) : Alike R' S' r t := by
  cases r with
  | error e =>
    cases t with
    | error f => exact hs e f h
    | ok b => exact h
  | ok a =>
    cases t with
    | error f => exact h
    | ok b => exact hr a b h

theorem Alike.ok_or_error {R : α → β → Prop} {S : Fault → Fault → Prop} {r : Except Fault α}
    {t : Except Fault β} (h : Alike R S r t) :
    (∃ a b, r = .ok a ∧ t = .ok b ∧ R a b) ∨ ∃ e f, r = .error e ∧ t = .error f ∧ S e f := by
  cases r with
  | error e =>
    cases t with
    | error f => exact .inr ⟨e, f, rfl, rfl, h⟩
    | ok b => exact h.elim
  | ok a =>
    cases t with
    | error f => exact h.elim
    | ok b => exact .inl ⟨a, b, rfl, rfl, h⟩

theorem Alike.join {R : α → γ → Prop} {R' : β → γ → Prop} {T : α → β → Prop}
    {S S' U : Fault → Fault → Prop} {r : Except Fault α} {r' : Except Fault β}
    {t : Except Fault γ} (h : Alike R S r t) (h' : Alike R' S' r' t)
    (ht : ∀ a b c, R a c → R' b c → T a b) (hu : ∀ e f g, S e g → S' f g → U e f) :
    Alike T U r r' := by
  obtain ⟨a, c, rfl, rfl, hac⟩ | ⟨e, g, rfl, rfl, heg⟩ := h.ok_or_error
  · cases r' with
    | ok b => exact ht a b c hac h'
    | error f => exact h'.elim
  · cases r' with
    | ok b => exact h'.elim
    | error f => exact hu e f g heg h'

theorem Alike.exists_ok {R : α → β → Prop} {S : Fault → Fault → Prop} {r : Except Fault α}
    {t : Except Fault β} {a : α} (h : Alike R S r t) (hr : r = .ok a) : ∃ b, t = .ok b ∧ R a b := by
  subst hr
  cases t with
  | error f => exact h.elim
  | ok b => exact ⟨b, rfl, h⟩

theorem exists_ok_of_map {ε : Type} {r : Except ε α} {f : α → β} {b : β}
    (h : r.toOption.map f = some b) : ∃ a, r = .ok a ∧ f a = b := by
  cases r with
  | error e => cases h
  | ok a => exact ⟨a, rfl, Option.some.inj h⟩

theorem exists_of_map_eq_ok {r : Except Fault α} {f : α → β} {b : β} (h : r.map f = .ok b) :
    ∃ a, r = .ok a ∧ f a = b := by
  cases r with
  | error e => cases h
  | ok a => exact ⟨a, rfl, Except.ok.inj h⟩

theorem mapM_eq_ok {f : α → Except Fault β} {g : α → β} {l : List α}
    (h : ∀ a ∈ l, f a = .ok (g a)) : l.mapM f = .ok (l.map g) := by
  induction l with
  | nil => rfl
  | cons a l ih =>
    rw [List.mapM_cons, h a (by simp), ih fun x hx => h x (by simp [hx])]
    rfl

theorem exists_mem_of_mapM {f : α → Except Fault β} {l : List α} {bs : List β}
    (h : l.mapM f = .ok bs) {a : α} (ha : a ∈ l) : ∃ b ∈ bs, f a = .ok b := by
  induction l generalizing bs with
  | nil => cases ha
  | cons x rest ih =>
    rw [List.mapM_cons] at h
    cases hx : f x with
    | error e => simp [hx, Bind.bind, Except.bind] at h
    | ok b =>
      cases hrest : rest.mapM f with
      | error e => simp [hx, hrest, Bind.bind, Except.bind] at h
      | ok cs =>
        simp only [hx, hrest, Bind.bind, Except.bind, Pure.pure, Except.pure, Except.ok.injEq] at h
        subst h
        rcases List.mem_cons.mp ha with rfl | ha
        · exact ⟨b, List.mem_cons_self, hx⟩
        · obtain ⟨c, hc, ha⟩ := ih hrest ha
          exact ⟨c, List.mem_cons_of_mem _ hc, ha⟩

theorem mapM_map_eq {m : Type → Type} [Monad m] [LawfulMonad m] (f : β → γ) (g : α → m β)
    (l : List α) : (l.mapM fun a => f <$> g a) = List.map f <$> l.mapM g := by
  induction l with
  | nil => simp
  | cons a l ih => simp [List.mapM_cons, ih]

namespace Traced

/-- A computation that leaves a log may end in a fault of `Q` only. -/
def EndsIn (Q : Fault → Prop) (t : Traced ω α) : Prop := Ends (fun _ => True) Q t.result

theorem endsIn_pure (a : α) : (Pure.pure a : Traced ω α).EndsIn Q := trivial

theorem endsIn_tell (w : ω) : (tell w).EndsIn Q := trivial

theorem endsIn_fail {e : Fault} (h : Q e) : (fail e : Traced ω α).EndsIn Q := h

theorem endsIn_lift {r : Except Fault α} (h : Ends P Q r) : (lift r : Traced ω α).EndsIn Q :=
  h.imp fun _ _ => trivial

theorem result_bind (t : Traced ω α) (f : α → Traced ω β) :
    (t >>= f).result = t.result >>= fun a => (f a).result := by
  cases h : t.result with
  | error e => rw [bind_of_error h]; rfl
  | ok a => rw [bind_of_ok h]; rfl

theorem log_map (f : α → β) (t : Traced ω α) : (f <$> t).log = t.log := by
  rw [← bind_pure_comp]
  cases hr : t.result with
  | error e => rw [bind_of_error hr]
  | ok a => rw [bind_of_ok hr]; simp

theorem result_map (f : α → β) (t : Traced ω α) : (f <$> t).result = t.result.map f := by
  rw [← bind_pure_comp]
  cases hr : t.result with
  | error e => rw [bind_of_error hr]; rfl
  | ok a => rw [bind_of_ok hr]; rfl

theorem exists_of_bind_eq_ok {t : Traced ω α} {f : α → Traced ω β} {b : β}
    (h : (t >>= f).result = .ok b) :
    ∃ a, t.result = .ok a ∧ (f a).result = .ok b ∧ (t >>= f).log = t.log ++ (f a).log := by
  cases hr : t.result with
  | error e =>
    rw [bind_of_error hr] at h
    cases h
  | ok a =>
    rw [bind_of_ok hr] at h ⊢
    exact ⟨a, rfl, h, rfl⟩

theorem EndsIn.bind {t : Traced ω α} {f : α → Traced ω β} (ht : t.EndsIn Q)
    (hf : ∀ a, (f a).EndsIn Q) : (t >>= f).EndsIn Q := by
  simp only [EndsIn, result_bind]
  exact Ends.bind ht fun a _ => hf a

theorem endsIn_lift_bind {r : Except Fault α} {f : α → Traced ω β} (hr : Ends P Q r)
    (hf : ∀ a, P a → (f a).EndsIn Q) : (lift r >>= f).EndsIn Q := by
  simp only [EndsIn, result_bind, result_lift]
  exact hr.bind hf

theorem lift_bind_of_ok {r : Except Fault α} {f : α → Traced ω β} {b : β}
    (h : (lift r >>= f).result = .ok b) : ∃ a, r = .ok a ∧ lift r >>= f = f a := by
  cases r with
  | error e => rw [bind_of_error (result_lift _)] at h; cases h
  | ok a => exact ⟨a, rfl, bind_of_ok (result_lift _) f⟩

theorem mem_log_lift_bind {r : Except Fault α} {f : α → Traced ω β} {w : ω}
    (h : w ∈ (lift r >>= f).log) : ∃ a, w ∈ (f a).log := by
  cases r with
  | error e =>
    rw [bind_of_error (result_lift _)] at h
    cases h
  | ok a =>
    rw [bind_of_ok (result_lift _)] at h
    exact ⟨a, by simpa using h⟩

theorem endsIn_mapM {f : α → Traced ω β} {l : List α} (h : ∀ a ∈ l, (f a).EndsIn Q) :
    (l.mapM f).EndsIn Q := by
  induction l with
  | nil => exact endsIn_pure []
  | cons a l ih =>
    rw [List.mapM_cons]
    refine (h a (by simp)).bind fun b => ?_
    refine (ih fun x hx => h x (by simp [hx])).bind fun bs => ?_
    exact endsIn_pure (b :: bs)

theorem endsIn_forM {f : α → Traced ω Unit} {l : List α} (h : ∀ a ∈ l, (f a).EndsIn Q) :
    (l.forM f).EndsIn Q := by
  induction l with
  | nil => exact endsIn_pure ()
  | cons a l ih =>
    simp only [List.forM_eq_forM, List.forM_cons]
    exact (h a (by simp)).bind fun _ => ih fun x hx => h x (by simp [hx])

def Succeeds (t : Traced ω α) : Prop := ∃ a, t.result = .ok a

theorem succeeds_pure (a : α) : (Pure.pure a : Traced ω α).Succeeds := ⟨a, rfl⟩

theorem succeeds_bind_iff {t : Traced ω α} {f : α → Traced ω β} :
    (t >>= f).Succeeds ↔ ∃ a, t.result = .ok a ∧ (f a).Succeeds := by
  simp only [Succeeds, result_bind]
  cases t.result with
  | error e => simp [Bind.bind, Except.bind]
  | ok a => simp [Bind.bind, Except.bind]

theorem succeeds_bind_and {t : Traced ω α} {f : α → Traced ω β} {p : Prop}
    (hf : ∀ a, (f a).Succeeds ↔ p) : (t >>= f).Succeeds ↔ t.Succeeds ∧ p := by
  rw [succeeds_bind_iff]
  simp only [hf, exists_and_right]
  rfl

theorem succeeds_bind_pure {t : Traced ω α} {g : α → β} :
    (t >>= fun a => Pure.pure (g a)).Succeeds ↔ t.Succeeds := by
  rw [succeeds_bind_and fun a => iff_true_intro (succeeds_pure (g a)), and_true]

theorem succeeds_mapM {f : α → Traced ω β} {l : List α} :
    (l.mapM f).Succeeds ↔ ∀ a ∈ l, (f a).Succeeds := by
  induction l with
  | nil => simp [List.mapM_nil, succeeds_pure]
  | cons a l ih =>
    rw [List.mapM_cons, succeeds_bind_and fun b => succeeds_bind_pure, ih, List.forall_mem_cons]

/-- A value that comes out is of `P`. -/
def Yields (P : α → Prop) (t : Traced ω α) : Prop := Ends P (fun _ => True) t.result

theorem yields_pure {a : α} (h : P a) : (Pure.pure a : Traced ω α).Yields P := h

theorem yields_of_forall (h : ∀ a, P a) (t : Traced ω α) : t.Yields P := by
  simp only [Yields]
  cases t.result with
  | ok a => exact h a
  | error e => trivial

theorem yields_fail (e : Fault) : (fail e : Traced ω α).Yields P := trivial

theorem Yields.bind {t : Traced ω α} {f : α → Traced ω β} (ht : t.Yields P)
    (hf : ∀ a, P a → (f a).Yields P') : (t >>= f).Yields P' := by
  simp only [Yields, result_bind]
  exact Ends.bind ht hf

theorem result_mapM (f : α → Traced ω β) (l : List α) :
    (l.mapM f).result = l.mapM fun a => (f a).result := by
  induction l with
  | nil => rfl
  | cons a rest ih =>
    rw [List.mapM_cons, List.mapM_cons, result_bind]
    simp only [result_bind, ih]
    rfl

theorem yields_mapM {f : β → Traced ω α} {l : List β} (h : ∀ b ∈ l, (f b).Yields P) :
    (l.mapM f).Yields fun as => ∀ a ∈ as, P a := by
  induction l with
  | nil => exact yields_pure (by simp)
  | cons b l ih =>
    rw [List.mapM_cons]
    refine (h b (by simp)).bind fun a ha => ?_
    refine (ih fun x hx => h x (by simp [hx])).bind fun as has => ?_
    exact yields_pure (List.forall_mem_cons.mpr ⟨ha, has⟩)

theorem Yields.of_ok {t : Traced ω α} {a : α} (h : t.Yields P) (ha : t.result = .ok a) : P a := by
  rw [Yields, ha] at h
  exact h

theorem map_congr_of_yields {t : Traced ω α} {f g : α → β} (ht : t.Yields P)
    (h : ∀ a, P a → f a = g a) : f <$> t = g <$> t := by
  rw [← bind_pure_comp, ← bind_pure_comp]
  cases hr : t.result with
  | error e => rw [bind_of_error hr, bind_of_error hr]
  | ok a => rw [bind_of_ok hr, bind_of_ok hr, h a (ht.of_ok hr)]

theorem yields_mapM_map {f : α → Traced ω β} {g : β → γ} {k : α → γ} {l : List α}
    (h : ∀ a ∈ l, (f a).Yields fun b => g b = k a) :
    (l.mapM f).Yields fun bs => bs.map g = l.map k := by
  induction l with
  | nil => exact yields_pure rfl
  | cons a l ih =>
    rw [List.mapM_cons]
    refine (h a (by simp)).bind fun b hb => ?_
    refine (ih fun x hx => h x (by simp [hx])).bind fun bs hbs => yields_pure ?_
    rw [List.map_cons, List.map_cons, hb, hbs]

theorem mapM_flatMap (f : α → List β) (g : β → Traced ω γ) (l : List α) :
    (l.flatMap f).mapM g = List.flatten <$> l.mapM fun a => (f a).mapM g := by
  induction l with
  | nil => simp
  | cons a l ih => simp [List.mapM_append, List.mapM_cons, ih]

theorem mapM_congr {f g : α → Traced ω β} {l : List α} (h : ∀ a ∈ l, f a = g a) :
    l.mapM f = l.mapM g := by
  induction l with
  | nil => rfl
  | cons a l ih =>
    rw [List.mapM_cons, List.mapM_cons, h a (by simp), ih fun b hb => h b (by simp [hb])]

theorem forM_flatMap (g : α → List β) (f : β → Traced ω Unit) (l : List α) :
    (l.flatMap g).forM f = l.forM fun a => (g a).forM f := by
  induction l with
  | nil => rfl
  | cons a l ih =>
    simp only [List.forM_eq_forM] at ih ⊢
    simp [ih]

theorem result_forM_eq_ok_iff {f : α → Traced ω Unit} {l : List α} :
    (l.forM f).result = .ok () ↔ ∀ a ∈ l, (f a).result = .ok () := by
  induction l with
  | nil => simp
  | cons a l ih =>
    simp only [List.forM_eq_forM, List.forM_cons, List.forall_mem_cons] at ih ⊢
    cases h : (f a).result with
    | error e => simp [bind_of_error h]
    | ok u => simpa [bind_of_ok h] using ih

theorem mem_log_forM {f : α → Traced ω Unit} {l : List α} {w : ω} (h : w ∈ (l.forM f).log) :
    ∃ a ∈ l, w ∈ (f a).log := by
  induction l with
  | nil => simp at h
  | cons a l ih =>
    simp only [List.forM_eq_forM, List.forM_cons] at ih h
    cases hr : (f a).result with
    | error e =>
      rw [bind_of_error hr] at h
      exact ⟨a, by simp, h⟩
    | ok u =>
      rw [bind_of_ok hr] at h
      rcases List.mem_append.mp h with h | h
      · exact ⟨a, by simp, h⟩
      · obtain ⟨b, hb, hw⟩ := ih h
        exact ⟨b, by simp [hb], hw⟩

theorem log_forM_of_ok {f : α → Traced ω Unit} {l : List α}
    (h : ∀ a ∈ l, (f a).result = .ok ()) : (l.forM f).log = l.flatMap fun a => (f a).log := by
  induction l with
  | nil => rfl
  | cons a l ih =>
    have hl := ih fun x hx => h x (by simp [hx])
    simp only [List.forM_eq_forM, List.forM_cons, List.flatMap_cons] at hl ⊢
    rw [bind_of_ok (h a (by simp)), hl]

/-- A walk ends in the first fault on the way. -/
theorem result_forM_eq_findSome? {f : α → Traced ω Unit} {fault : α → Option Fault} {l : List α}
    (h : ∀ a ∈ l, (f a).result = match fault a with | none => .ok () | some e => .error e) :
    (l.forM f).result = match l.findSome? fault with | none => .ok () | some e => .error e := by
  induction l with
  | nil => rfl
  | cons a l ih =>
    have ha := h a (by simp)
    have hl := ih fun x hx => h x (by simp [hx])
    simp only [List.forM_eq_forM, List.forM_cons, List.findSome?_cons] at hl ⊢
    cases hf : fault a with
    | none =>
      rw [hf] at ha
      rw [bind_of_ok ha, hl]
    | some e =>
      rw [hf] at ha
      rw [bind_of_error ha]

end Traced
end Libdef
