import AurixVoice.Library.BitWindow
import Mathlib.Data.List.FinRange

/-!
The two anti-replay windows. A counter is a `Nat` here: neither window adds to one.
-/

namespace AurixVoice.Protocol

open Function BitWindow

structure ReplayWindow where
  highest : ℕ
  bitmap : BitVec 64
  initialized : Bool
  deriving DecidableEq

namespace ReplayWindow

def window : ℕ := 64

instance : Inhabited ReplayWindow := ⟨⟨0, 0, false⟩⟩

def checkAndUpdateU64 (w : ReplayWindow) (seq : ℕ) : Bool × ReplayWindow :=
  if w.initialized = false then (true, ⟨seq, 1#64, true⟩)
  else if w.highest < seq then
    let delta := seq - w.highest
    let bitmap := if window ≤ delta then 1#64 else (w.bitmap <<< delta) ||| 1#64
    (true, { w with bitmap := bitmap, highest := seq })
  else
    let delta := w.highest - seq
    if window ≤ delta then (false, w)
    else
      let mask := 1#64 <<< delta
      if w.bitmap &&& mask ≠ 0#64 then (false, w) else (true, { w with bitmap := w.bitmap ||| mask })

def checkAndUpdate (w : ReplayWindow) (seq : UInt32) : Bool × ReplayWindow :=
  w.checkAndUpdateU64 seq.toNat

def top (w : ReplayWindow) : Option ℕ := if w.initialized then some w.highest else none

variable {w : ReplayWindow}

lemma top_eq_none (h : w.top = none) : w.initialized = false := by
  simpa [top] using h

lemma top_eq_some {n : ℕ} (h : w.top = some n) : w.initialized = true ∧ w.highest = n := by
  simpa [top] using h

lemma getLsbD_shifted (b : BitVec 64) {k d : ℕ} (hd : d < 64) :
    (if window ≤ k then 1#64 else (b <<< k) ||| 1#64).getLsbD d =
      (decide (d = 0) || decide (k ≤ d) && b.getLsbD (d - k)) := by
  have hmoved : (if window ≤ k then 1#64 else (b <<< k) ||| 1#64) =
      (if 64 ≤ k then 0#64 else b <<< k) ||| 1#64 := by
    unfold window
    split <;> simp
  rw [hmoved, getLsbD_moved b hd]

def sliding : SlidingWindow ReplayWindow where
  width := window
  highest := top
  marked w d := w.bitmap.getLsbD d
  accept := checkAndUpdateU64
  first := by
    intro w n h
    simp only [checkAndUpdateU64, top_eq_none h, if_true]
    exact ⟨trivial, rfl, fun d hd => getLsbD_first hd⟩
  ahead := by
    intro w n h hsome hlt
    obtain ⟨hinit, rfl⟩ := top_eq_some hsome
    simp only [checkAndUpdateU64, hinit, Bool.true_eq_false, if_false, hlt, if_true]
    exact ⟨trivial, by simp [top], fun d hd => getLsbD_shifted w.bitmap hd⟩
  behind := by
    intro w n h hsome hle hwidth hmark
    obtain ⟨hinit, rfl⟩ := top_eq_some hsome
    have hmask := (and_mask_eq_zero_iff w.bitmap hwidth).mpr hmark
    simp only [checkAndUpdateU64, hinit, Bool.true_eq_false, if_false, Nat.not_lt.mpr hle,
      Nat.not_le.mpr hwidth, hmask, ne_eq, not_true]
    refine ⟨trivial, by simp [top], ?_⟩
    intro d hd
    rw [BitVec.getLsbD_or, getLsbD_bit (w := 64) hd, Bool.or_comm]
  refused := by
    intro w n h hsome hle hmark
    obtain ⟨hinit, rfl⟩ := top_eq_some hsome
    simp only [checkAndUpdateU64, hinit, Bool.true_eq_false, if_false, Nat.not_lt.mpr hle]
    split
    · rfl
    next hwidth =>
      have hbit := hmark (Nat.not_le.mp hwidth)
      rw [if_pos]
      intro hzero
      rw [(and_mask_eq_zero_iff w.bitmap (Nat.not_le.mp hwidth)).mp hzero] at hbit
      cases hbit

end ReplayWindow

def wideReplayWords : ℕ := 64
def wideReplayWindow : ℕ := wideReplayWords * 64

abbrev Bitmap := Fin wideReplayWords → BitVec 64

structure WideReplayWindow where
  highest : ℕ
  bitmap : Bitmap
  initialized : Bool

namespace WideReplayWindow

def cleared : Bitmap := fun _ => 0#64

instance : Inhabited WideReplayWindow := ⟨⟨0, cleared, false⟩⟩

def bit (delta : ℕ) : Fin wideReplayWords × BitVec 64 :=
  (⟨delta / 64 % wideReplayWords, Nat.mod_lt _ (by decide)⟩, 1#64 <<< (delta % 64))

def shiftedWord (b : Bitmap) (words bits : ℕ) (i : Fin wideReplayWords) : BitVec 64 :=
  if words ≤ i.val then
    let v := b ⟨i.val - words, by omega⟩ <<< bits
    if 0 < bits ∧ words < i.val then v ||| (b ⟨i.val - words - 1, by omega⟩ >>> (64 - bits)) else v
  else 0#64

def shiftLeft (b : Bitmap) (count : ℕ) : Bitmap :=
  if wideReplayWindow ≤ count then cleared
  else
    (List.finRange wideReplayWords).reverse.foldl
      (fun b i => update b i (shiftedWord b (count / 64) (count % 64) i)) b

def checkAndUpdateU64 (w : WideReplayWindow) (seq : ℕ) : Bool × WideReplayWindow :=
  if w.initialized = false then (true, ⟨seq, update cleared ⟨0, by decide⟩ 1#64, true⟩)
  else if w.highest < seq then
    let b := shiftLeft w.bitmap (seq - w.highest)
    (true, { w with bitmap := update b ⟨0, by decide⟩ (b ⟨0, by decide⟩ ||| 1#64), highest := seq })
  else
    let delta := w.highest - seq
    if wideReplayWindow ≤ delta then (false, w)
    else
      let (word, mask) := bit delta
      if w.bitmap word &&& mask ≠ 0#64 then (false, w)
      else (true, { w with bitmap := update w.bitmap word (w.bitmap word ||| mask) })

def mark (b : Bitmap) (d : ℕ) : Bool := (b (bit d).1).getLsbD (d % 64)

lemma mark_cleared (d : ℕ) : mark cleared d = false := by simp [mark, cleared]

variable {d words r : ℕ} {i : Fin wideReplayWords} {w : WideReplayWindow} (b : Bitmap)

lemma mark_set {k : ℕ} (hd : d < wideReplayWindow) (hk : k < wideReplayWindow) :
    mark (update b (bit k).1 (b (bit k).1 ||| (bit k).2)) d = (decide (d = k) || mark b d) := by
  have hmod : d % 64 < 64 := Nat.mod_lt _ (by decide)
  by_cases hword : (bit d).1 = (bit k).1
  · have hbit : (bit k).2.getLsbD (d % 64) = decide (d = k) := by
      rw [bit, getLsbD_bit hmod]
      apply decide_eq_decide.mpr
      simp only [bit, Fin.mk.injEq, wideReplayWords, wideReplayWindow] at hword hd hk
      omega
    rw [mark, hword, update_self, BitVec.getLsbD_or, hbit, Bool.or_comm, mark, hword]
  · have hne : d ≠ k := by
      rintro rfl
      exact hword rfl
    rw [mark, update_of_ne hword, decide_eq_false hne, Bool.false_or, mark]

lemma shiftedWord_congr {b b' : Bitmap} (h : ∀ j ≤ i, b j = b' j) (words bits : ℕ) :
    shiftedWord b words bits i = shiftedWord b' words bits i := by
  unfold shiftedWord
  rw [h ⟨i.val - words, by omega⟩ (Fin.mk_le_of_le_val (by omega)),
    h ⟨i.val - words - 1, by omega⟩ (Fin.mk_le_of_le_val (by omega))]

lemma foldr_shiftedWord (b : Bitmap) (words bits : ℕ) (is : List (Fin wideReplayWords))
    (h : is.Pairwise (· < ·)) (j : Fin wideReplayWords) :
    is.foldr (fun i b => update b i (shiftedWord b words bits i)) b j =
      if j ∈ is then shiftedWord b words bits j else b j := by
  induction is generalizing j with
  | nil => simp
  | cons i is ih =>
    obtain ⟨hi, his⟩ := List.pairwise_cons.mp h
    rw [List.foldr_cons]
    by_cases hji : j = i
    · subst hji
      rw [update_self, if_pos List.mem_cons_self]
      apply shiftedWord_congr
      intro k hk
      rw [ih his, if_neg]
      intro hmem
      exact absurd (hi k hmem) (not_lt.mpr hk)
    · rw [update_of_ne hji, ih his]
      simp [hji]

lemma shiftLeft_of_lt {count : ℕ} (h : count < wideReplayWindow) (i : Fin wideReplayWords) :
    shiftLeft b count i = shiftedWord b (count / 64) (count % 64) i := by
  rw [shiftLeft, if_neg (not_le.mpr h), List.foldl_reverse,
    foldr_shiftedWord b _ _ _ (List.pairwise_lt_finRange _), if_pos (List.mem_finRange i)]

lemma mark_eq (hd : d = 64 * i.val + r) (hr : r < 64) : mark b d = (b i).getLsbD r := by
  have hword : (bit d).1 = i := by
    apply Fin.ext
    have := i.isLt
    simp only [bit, wideReplayWords] at this ⊢
    omega
  have hmod : d % 64 = r := by omega
  rw [mark, hword, hmod]

lemma getLsbD_shiftedWord_high {bits : ℕ} (hr : r < 64) (hwords : words ≤ i.val) (hbits : bits ≤ r) :
    (shiftedWord b words bits i).getLsbD r = mark b (64 * i.val + r - (64 * words + bits)) := by
  have hout : ∀ w : BitVec 64, (w >>> (64 - bits)).getLsbD r = false := by
    intro w
    rw [BitVec.getLsbD_ushiftRight]
    exact BitVec.getLsbD_of_ge _ _ (by omega)
  have hmark : mark b (64 * i.val + r - (64 * words + bits)) =
      (b ⟨i.val - words, by omega⟩).getLsbD (r - bits) := by
    apply mark_eq
    · dsimp only
      omega
    · omega
  rw [hmark, shiftedWord, if_pos hwords]
  split
  · rw [BitVec.getLsbD_or, hout, Bool.or_false, BitVec.getLsbD_shiftLeft]
    simp [hr, hbits]
  · rw [BitVec.getLsbD_shiftLeft]
    simp [hr, hbits]

lemma getLsbD_shiftedWord_low {bits : ℕ} (hr : r < bits) (hbits : bits < 64) (hwords : words < i.val) :
    (shiftedWord b words bits i).getLsbD r = mark b (64 * i.val + r - (64 * words + bits)) := by
  have hmark : mark b (64 * i.val + r - (64 * words + bits)) =
      (b ⟨i.val - words - 1, by omega⟩).getLsbD (64 - bits + r) := by
    apply mark_eq
    · dsimp only
      omega
    · omega
  rw [hmark, shiftedWord, if_pos hwords.le]
  rw [if_pos ⟨by omega, hwords⟩, BitVec.getLsbD_or, BitVec.getLsbD_shiftLeft, BitVec.getLsbD_ushiftRight]
  simp [hr]

lemma getLsbD_shiftedWord_below {bits : ℕ} (h : 64 * i.val + r < 64 * words + bits) (hbits : bits < 64) :
    (shiftedWord b words bits i).getLsbD r = false := by
  unfold shiftedWord
  by_cases hwords : words ≤ i.val
  · have hlow : r < bits := by omega
    have hfirst : ¬ words < i.val := by omega
    simp [hwords, hfirst, hlow]
  · simp [hwords]

lemma mark_shiftLeft (count : ℕ) (hd : d < wideReplayWindow) :
    mark (shiftLeft b count) d = (decide (count ≤ d) && mark b (d - count)) := by
  by_cases hcount : wideReplayWindow ≤ count
  · rw [shiftLeft, if_pos hcount, mark_cleared, decide_eq_false (by omega), Bool.false_and]
  · rw [not_le] at hcount
    have hcount_eq : count = 64 * (count / 64) + count % 64 := (Nat.div_add_mod count 64).symm
    have hd_eq : d = 64 * (bit d).1.val + d % 64 := by
      simp only [bit, wideReplayWords, wideReplayWindow] at hd ⊢
      omega
    have hmod : d % 64 < 64 := Nat.mod_lt _ (by decide)
    have hbits : count % 64 < 64 := Nat.mod_lt _ (by decide)
    rw [mark, shiftLeft_of_lt b hcount]
    by_cases hle : count ≤ d
    · rw [decide_eq_true hle, Bool.true_and]
      have hsub : d - count = 64 * (bit d).1.val + d % 64 - (64 * (count / 64) + count % 64) := by
        rw [← hd_eq, ← hcount_eq]
      rw [hsub]
      by_cases hlow : count % 64 ≤ d % 64
      · exact getLsbD_shiftedWord_high b hmod (by omega) hlow
      · exact getLsbD_shiftedWord_low b (by omega) hbits (by omega)
    · rw [decide_eq_false hle, Bool.false_and]
      exact getLsbD_shiftedWord_below b (by omega) hbits

def top (w : WideReplayWindow) : Option ℕ := if w.initialized then some w.highest else none

lemma top_eq_none (h : w.top = none) : w.initialized = false := by
  simpa [top] using h

lemma top_eq_some {n : ℕ} (h : w.top = some n) : w.initialized = true ∧ w.highest = n := by
  simpa [top] using h

lemma mark_set_first (hd : d < wideReplayWindow) :
    mark (update b ⟨0, by decide⟩ (b ⟨0, by decide⟩ ||| 1#64)) d = (decide (d = 0) || mark b d) :=
  mark_set b hd (by decide : 0 < wideReplayWindow)

lemma and_bit_eq_zero_iff (k : ℕ) : b (bit k).1 &&& (bit k).2 = 0#64 ↔ mark b k = false :=
  and_mask_eq_zero_iff _ (Nat.mod_lt _ (by decide))

def sliding : SlidingWindow WideReplayWindow where
  width := wideReplayWindow
  highest := top
  marked w d := mark w.bitmap d
  accept := checkAndUpdateU64
  first := by
    intro w n h
    simp only [checkAndUpdateU64, top_eq_none h, if_true]
    refine ⟨trivial, rfl, ?_⟩
    intro d hd
    have hmark := mark_set_first cleared hd
    rwa [mark_cleared, Bool.or_false] at hmark
  ahead := by
    intro w n h hsome hlt
    obtain ⟨hinit, rfl⟩ := top_eq_some hsome
    simp only [checkAndUpdateU64, hinit, Bool.true_eq_false, if_false, hlt, if_true]
    refine ⟨trivial, by simp [top], ?_⟩
    intro d hd
    rw [mark_set_first _ hd, mark_shiftLeft _ _ hd]
  behind := by
    intro w n h hsome hle hwidth hmark
    obtain ⟨hinit, rfl⟩ := top_eq_some hsome
    have hmask := (and_bit_eq_zero_iff w.bitmap _).mpr hmark
    simp only [checkAndUpdateU64, hinit, Bool.true_eq_false, if_false, Nat.not_lt.mpr hle,
      Nat.not_le.mpr hwidth, hmask, ne_eq, not_true]
    exact ⟨trivial, by simp [top], fun d hd => mark_set w.bitmap hd hwidth⟩
  refused := by
    intro w n h hsome hle hmark
    obtain ⟨hinit, rfl⟩ := top_eq_some hsome
    simp only [checkAndUpdateU64, hinit, Bool.true_eq_false, if_false, Nat.not_lt.mpr hle]
    split
    · rfl
    next hwidth =>
      have hbit := hmark (Nat.not_le.mp hwidth)
      rw [if_pos]
      intro hzero
      rw [(and_bit_eq_zero_iff w.bitmap _).mp hzero] at hbit
      cases hbit

end WideReplayWindow

end AurixVoice.Protocol
