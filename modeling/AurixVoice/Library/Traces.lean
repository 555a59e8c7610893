import Mathlib.Tactic.Common

/-! Runs of a step function over events, and the inductions that carry an invariant along them. -/

namespace AurixVoice.Traces

variable {σ ε β : Type}

def Meets (step : σ → ε → σ) (ok : σ → ε → Prop) : σ → List ε → Prop
  | _, [] => True
  | s, e :: es => ok s e ∧ Meets step ok (step s e) es

lemma meets_append (step : σ → ε → σ) (ok : σ → ε → Prop) (s : σ) (es fs : List ε) :
    Meets step ok s (es ++ fs) ↔ Meets step ok s es ∧ Meets step ok (es.foldl step s) fs := by
  induction es generalizing s with
  | nil => simp [Meets]
  | cons e es ih => simp [Meets, ih, and_assoc]

variable {ok : σ → ε → Prop} {s : σ} {es : List ε} (Inv P : σ → Prop) {step : σ → ε → σ}

lemma meets_invariant (hstep : ∀ s e, Inv s → ok s e → Inv (step s e)) (h : Meets step ok s es)
    (hs : Inv s) : Inv (es.foldl step s) := by
  induction es generalizing s with
  | nil => exact hs
  | cons e es ih => exact ih h.2 (hstep s e hs h.1)

lemma foldl_invariant (hstep : ∀ s e, Inv s → Inv (step s e)) (es : List ε) (hs : Inv s) : Inv (es.foldl step s) := by
  induction es generalizing s with
  | nil => exact hs
  | cons e es ih => exact ih (hstep s e hs)

lemma meets_of_forall (h : ∀ s e, ok s e) (s : σ) (es : List ε) : Meets step ok s es := by
  induction es generalizing s with
  | nil => trivial
  | cons e es ih => exact ⟨h s e, ih _⟩

lemma meets_iff {guard ok' : σ → ε → Prop} (hstep : ∀ s e, Inv s → guard s e → Inv (step s e))
    (hiff : ∀ s e, Inv s → guard s e → (ok s e ↔ ok' s e)) (h : Meets step guard s es) (hs : Inv s) :
    Meets step ok s es ↔ Meets step ok' s es := by
  induction es generalizing s with
  | nil => exact Iff.rfl
  | cons e es ih => exact and_congr (hiff s e hs h.1) (ih h.2 (hstep s e hs h.1))

lemma meets_of_invariant {guard : σ → ε → Prop} (hstep : ∀ s e, Inv s → guard s e → Inv (step s e))
    (hok : ∀ s e, Inv s → guard s e → ok s e) (h : Meets step guard s es) (hs : Inv s) : Meets step ok s es := by
  induction es generalizing s with
  | nil => trivial
  | cons e es ih => exact ⟨hok s e hs h.1, ih h.2 (hstep s e hs h.1)⟩

/-- What a step that fails `ok` breaks, no later step repairs: it holds at the end if and only if every
step has met `ok`. -/
lemma foldl_iff_meets (hinv : ∀ s e, Inv s → Inv (step s e))
    (hback : ∀ s e, Inv s → P (step s e) → P s) (hstep : ∀ s e, Inv s → P s → (P (step s e) ↔ ok s e)) (hs : Inv s)
    (hP : P s) : P (es.foldl step s) ↔ Meets step ok s es := by
  have hpast : ∀ (es : List ε) (s : σ), Inv s → P (es.foldl step s) → P s := by
    intro es
    induction es with
    | nil => exact fun _ _ h => h
    | cons e es ih => exact fun s hs h => hback s e hs (ih (step s e) (hinv s e hs) h)
  induction es generalizing s with
  | nil => exact iff_of_true hP trivial
  | cons e es ih =>
    rw [Meets, ← hstep s e hs hP, List.foldl_cons]
    constructor
    · intro h
      have hnext := hpast es (step s e) (hinv s e hs) h
      exact ⟨hnext, (ih (hinv s e hs) hnext).mp h⟩
    · exact fun h => (ih (hinv s e hs) h.1).mpr h.2

lemma meets_next_iff (hstep : ∀ s e, P s → (P (step s e) ↔ ok s e)) (hP : P s) :
    Meets step (fun s e => P (step s e)) s es ↔ Meets step ok s es := by
  induction es generalizing s with
  | nil => exact Iff.rfl
  | cons e es ih =>
    rw [Meets, Meets, ← hstep s e hP]
    exact and_congr_right fun hnext => ih hnext

lemma nodup_iff_meets (log : σ → List β) (out : σ → ε → Option β)
    (hstep : ∀ s e, log (step s e) = (out s e).toList ++ log s) (hs : (log s).Nodup) :
    (log (es.foldl step s)).Nodup ↔ Meets step (fun s e => ∀ b ∈ out s e, b ∉ log s) s es := by
  have hsuffix : ∀ (es : List ε) (s : σ), log s <:+ log (es.foldl step s) := by
    intro es
    induction es with
    | nil => exact fun s => List.suffix_refl _
    | cons e es ih =>
      intro s
      have hfirst : log s <:+ log (step s e) := by
        rw [hstep]
        exact List.suffix_append _ _
      exact hfirst.trans (ih (step s e))
  induction es generalizing s with
  | nil => exact iff_of_true hs trivial
  | cons e es ih =>
    have hhead : (log (step s e)).Nodup ↔ ∀ b ∈ out s e, b ∉ log s := by
      rw [hstep]
      cases out s e <;> simp [hs]
    rw [Meets, ← hhead, List.foldl_cons]
    constructor
    · intro h
      have hnext := h.sublist (hsuffix es (step s e)).sublist
      exact ⟨hnext, (ih hnext).mp h⟩
    · exact fun h => (ih h.1).mpr h.2

def outputs (step : σ → ε → σ) (out : σ → ε → List β) : σ → List ε → List β
  | _, [] => []
  | s, e :: es => out s e ++ outputs step out (step s e) es

lemma outputs_append (step : σ → ε → σ) (out : σ → ε → List β) (s : σ) (es fs : List ε) :
    outputs step out s (es ++ fs) = outputs step out s es ++ outputs step out (es.foldl step s) fs := by
  induction es generalizing s with
  | nil => rfl
  | cons e es ih => rw [List.cons_append, outputs, ih, outputs, List.append_assoc, List.foldl_cons]

lemma forall_outputs_iff {out : σ → ε → List β} (P : β → Prop) :
    (∀ b ∈ outputs step out s es, P b) ↔ Meets step (fun s e => ∀ b ∈ out s e, P b) s es := by
  induction es generalizing s with
  | nil => simp [outputs, Meets]
  | cons e es ih => rw [outputs, List.forall_mem_append, ih, Meets]

end AurixVoice.Traces
