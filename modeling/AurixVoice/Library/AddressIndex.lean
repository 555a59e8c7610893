import AurixVoice.Library.Traces
import Mathlib.Logic.Function.Basic

/-!
Owners of at most one address each, and an index beside them: whoever takes an address enters it, and whoever
gives one up deletes its entry, whoever that names.
-/

namespace AurixVoice

open Function

structure AddressIndex (S A : Type) where
  addr : S → Option A
  index : A → Option S

namespace AddressIndex

variable {S A : Type} [DecidableEq S] [DecidableEq A]

inductive Op (S A : Type)
  | claim (s : S) (a : A)
  | release (s : S)
  | keep

def forget (index : A → Option S) (old : Option A) : A → Option S :=
  fun a => if old = some a then none else index a

def apply (t : AddressIndex S A) : Op S A → AddressIndex S A
  | .claim s a =>
    ⟨update t.addr s (some a), update (forget t.index (t.addr s)) a (some s)⟩
  | .release s => ⟨update t.addr s none, forget t.index (t.addr s)⟩
  | .keep => t

omit [DecidableEq S] [DecidableEq A] in
lemma ext {t u : AddressIndex S A} (haddr : ∀ s, t.addr s = u.addr s) (hindex : ∀ a, t.index a = u.index a) :
    t = u := by
  obtain ⟨f, i⟩ := t
  obtain ⟨g, j⟩ := u
  obtain rfl : f = g := funext haddr
  obtain rfl : i = j := funext hindex
  rfl

def Sound (t : AddressIndex S A) : Prop := ∀ a s, t.index a = some s → t.addr s = some a

def Agrees (t : AddressIndex S A) : Prop := ∀ a s, t.index a = some s ↔ t.addr s = some a

omit [DecidableEq S] [DecidableEq A] in
lemma Agrees.sound {t : AddressIndex S A} (h : t.Agrees) : t.Sound := fun a s => (h a s).mp

variable {a : A}

omit [DecidableEq S] in
lemma forget_eq_some {index : A → Option S} {old : Option A} {s : S} :
    forget index old a = some s ↔ old ≠ some a ∧ index a = some s := by
  unfold forget
  split <;> simp [*]

variable {t : AddressIndex S A}

lemma addr_of_forgotten (h : t.Sound) {s o : S} {v : Option A}
    (hforget : forget t.index (t.addr s) a = some o) : update t.addr s v o = some a := by
  obtain ⟨hne, hindex⟩ := forget_eq_some.mp hforget
  have haddr := h a o hindex
  by_cases hos : o = s
  · subst hos
    exact absurd haddr hne
  · rwa [update_of_ne hos]

lemma Sound.apply (h : t.Sound) (op : Op S A) : (t.apply op).Sound := by
  cases op with
  | keep => exact h
  | release => exact fun a o hforget => addr_of_forgotten h hforget
  | claim s a =>
    intro b o hindex
    by_cases hb : b = a
    · subst hb
      obtain rfl : s = o := Option.some.inj (by simpa [AddressIndex.apply] using hindex)
      simp [AddressIndex.apply]
    · have hforget : forget t.index (t.addr s) b = some o := by
        simpa [AddressIndex.apply, update_of_ne hb] using hindex
      exact addr_of_forgotten h hforget

def Undisputed (t : AddressIndex S A) : Op S A → Prop
  | .claim s a => ∀ o, t.addr o = some a → o = s
  | .release _ => True
  | .keep => True

omit [DecidableEq S] in
lemma forgotten_of_addr (h : t.Agrees) {s o : S} (hos : o ≠ s)
    (haddr : t.addr o = some a) : forget t.index (t.addr s) a = some o := by
  have hindex := (h a o).mpr haddr
  refine forget_eq_some.mpr ⟨?_, hindex⟩
  intro hs
  have hindex' := (h a s).mpr hs
  rw [hindex] at hindex'
  exact hos (Option.some.inj hindex')

lemma agrees_claim (h : t.Agrees) {s : S} (hmine : ∀ o, t.addr o = some a → o = s) :
    (t.apply (.claim s a)).Agrees := by
  intro b o
  refine ⟨h.sound.apply (.claim s a) b o, ?_⟩
  intro haddr
  simp only [apply] at haddr ⊢
  by_cases hos : o = s
  · subst hos
    rw [update_self] at haddr
    obtain rfl := Option.some.inj haddr
    rw [update_self]
  · rw [update_of_ne hos] at haddr
    have hb : b ≠ a := by
      rintro rfl
      exact hos (hmine o haddr)
    rw [update_of_ne hb]
    exact forgotten_of_addr h hos haddr

lemma agrees_release (h : t.Agrees) (s : S) : (t.apply (.release s)).Agrees := by
  intro b o
  refine ⟨h.sound.apply (.release s) b o, ?_⟩
  intro haddr
  simp only [apply] at haddr ⊢
  by_cases hos : o = s
  · subst hos
    rw [update_self] at haddr
    cases haddr
  · rw [update_of_ne hos] at haddr
    exact forgotten_of_addr h hos haddr

lemma agrees_apply_iff (h : t.Agrees) (op : Op S A) : (t.apply op).Agrees ↔ t.Undisputed op := by
  cases op with
  | keep => exact iff_of_true h trivial
  | release s => exact iff_of_true (agrees_release h s) trivial
  | claim s a =>
    refine ⟨?_, agrees_claim h⟩
    intro hnext o haddr
    by_contra hos
    -- the entry names the new owner while the other one keeps the address
    have hold := (hnext a o).mpr (by simpa [apply, update_of_ne hos] using haddr)
    simp only [apply, update_self] at hold
    exact hos (Option.some.inj hold).symm

section Runs

variable {σ ε : Type} {step : σ → ε → σ} {view : σ → AddressIndex S A} {op : σ → ε → Op S A}

lemma sound_run (hstep : ∀ s e, view (step s e) = (view s).apply (op s e)) {s : σ} (es : List ε)
    (h : (view s).Sound) : (view (es.foldl step s)).Sound := by
  apply Traces.foldl_invariant (fun s => (view s).Sound)
  · intro s e hs
    rw [hstep]
    exact hs.apply (op s e)
  · exact h

lemma meets_agrees_iff (hstep : ∀ s e, view (step s e) = (view s).apply (op s e)) {s : σ}
    (h : (view s).Agrees) (es : List ε) :
    Traces.Meets step (fun s e => (view (step s e)).Agrees) s es ↔
      Traces.Meets step (fun s e => (view s).Undisputed (op s e)) s es := by
  induction es generalizing s with
  | nil => exact Iff.rfl
  | cons e es ih =>
    have hiff : (view (step s e)).Agrees ↔ (view s).Undisputed (op s e) := by
      rw [hstep]
      exact agrees_apply_iff h (op s e)
    constructor
    · rintro ⟨hnext, hrest⟩
      exact ⟨hiff.mp hnext, (ih hnext).mp hrest⟩
    · rintro ⟨hop, hrest⟩
      exact ⟨hiff.mpr hop, (ih (hiff.mpr hop)).mpr hrest⟩

end Runs

end AddressIndex

end AurixVoice
