import Libdef.Fault

/-!
Computations that leave a log and may fail. What was logged before a failure stays in the log.
-/

set_option autoImplicit false

namespace Libdef

structure Traced (ω α : Type) where
  log : List ω
  result : Except Fault α

namespace Traced

variable {ω α β γ : Type}

theorem ext {t u : Traced ω α} (hl : t.log = u.log) (hr : t.result = u.result) : t = u := by
  cases t; cases u; simp_all

def pure (a : α) : Traced ω α := ⟨[], .ok a⟩

def bind (t : Traced ω α) (f : α → Traced ω β) : Traced ω β :=
  match t.result with
  | .ok a =>
    let next := f a
    ⟨t.log ++ next.log, next.result⟩
  | .error e => ⟨t.log, .error e⟩

instance : Monad (Traced ω) where
  pure := Traced.pure
  bind := Traced.bind

def tell (w : ω) : Traced ω Unit := ⟨[w], .ok ()⟩

def fail (e : Fault) : Traced ω α := ⟨[], .error e⟩

def lift (r : Except Fault α) : Traced ω α := ⟨[], r⟩

@[simp] theorem log_pure (a : α) : (Pure.pure a : Traced ω α).log = [] := rfl

@[simp] theorem result_pure (a : α) : (Pure.pure a : Traced ω α).result = .ok a := rfl

@[simp] theorem log_tell (w : ω) : (tell w).log = [w] := rfl

@[simp] theorem result_tell (w : ω) : (tell w).result = .ok () := rfl

@[simp] theorem log_fail (e : Fault) : (fail e : Traced ω α).log = [] := rfl

@[simp] theorem result_fail (e : Fault) : (fail e : Traced ω α).result = .error e := rfl

@[simp] theorem log_lift (r : Except Fault α) : (lift r : Traced ω α).log = [] := rfl

@[simp] theorem result_lift (r : Except Fault α) : (lift r : Traced ω α).result = r := rfl

theorem bind_of_ok {t : Traced ω α} {a : α} (h : t.result = .ok a) (f : α → Traced ω β) :
    t >>= f = ⟨t.log ++ (f a).log, (f a).result⟩ := by
  show Traced.bind t f = _
  simp [Traced.bind, h]

theorem bind_of_error {t : Traced ω α} {e : Fault} (h : t.result = .error e)
    (f : α → Traced ω β) : t >>= f = ⟨t.log, .error e⟩ := by
  show Traced.bind t f = _
  simp [Traced.bind, h]

theorem pure_bind (a : α) (f : α → Traced ω β) : (Pure.pure a : Traced ω α) >>= f = f a := by
  rw [bind_of_ok (result_pure a)]
  rfl

theorem bind_pure (t : Traced ω α) : t >>= Pure.pure = t := by
  cases h : t.result with
  | ok a => rw [bind_of_ok h]; exact ext (by simp) (by simp [h])
  | error e => rw [bind_of_error h]; exact ext rfl h.symm

theorem bind_assoc (t : Traced ω α) (f : α → Traced ω β) (g : β → Traced ω γ) :
    t >>= f >>= g = t >>= fun a => f a >>= g := by
  cases h : t.result with
  | error e => rw [bind_of_error h, bind_of_error h, bind_of_error rfl]
  | ok a =>
    rw [bind_of_ok h, bind_of_ok h]
    cases hf : (f a).result with
    | error e => rw [bind_of_error rfl, bind_of_error hf]
    | ok b =>
      rw [bind_of_ok rfl, bind_of_ok hf]
      simp

instance : LawfulMonad (Traced ω) :=
  LawfulMonad.mk' (Traced ω)
    (fun t => by
      show t >>= (fun a => Pure.pure (id a)) = t
      exact bind_pure t)
    pure_bind bind_assoc

end Traced
end Libdef
