import Mathlib.Data.List.Basic

/-! Self-delimiting frames on a stream. What a cutter says of the front, later arrivals do not change. -/

namespace AurixVoice

open List

inductive Cut (ε : Type)
  | more
  | refuse (e : ε)
  | frame (len : ℕ)
  deriving DecidableEq

structure Cutter (α ε : Type) where
  cut : List α → Cut ε
  pos : ∀ {xs n}, cut xs = .frame n → 0 < n
  le_length : ∀ {xs n}, cut xs = .frame n → n ≤ xs.length
  stable : ∀ {xs} ys, cut xs ≠ .more → cut (xs ++ ys) = cut xs

@[ext] structure Parse (α ε : Type) where
  frames : List (List α)
  refused : Option ε
  rest : List α

namespace Parse

variable {α ε : Type}

def after (frames : List (List α)) (p : Parse α ε) : Parse α ε := { p with frames := frames ++ p.frames }

@[simp] lemma frames_after (frames : List (List α)) (p : Parse α ε) :
    (p.after frames).frames = frames ++ p.frames := rfl

@[simp] lemma rest_after (frames : List (List α)) (p : Parse α ε) : (p.after frames).rest = p.rest := rfl

@[simp] lemma after_after (first second : List (List α)) (p : Parse α ε) :
    (p.after second).after first = p.after (first ++ second) := by
  simp [after, append_assoc]

@[simp] lemma after_nil (p : Parse α ε) : p.after [] = p := rfl

end Parse

namespace Cutter

variable {α ε : Type} (c : Cutter α ε)

def parse (xs : List α) : Parse α ε :=
  match _h : c.cut xs with
  | .more => ⟨[], none, xs⟩
  | .refuse e => ⟨[], some e, xs⟩
  | .frame n => (parse (xs.drop n)).after [xs.take n]
termination_by xs.length
decreasing_by
  have hpos := c.pos _h
  have hle := c.le_length _h
  rw [length_drop]
  omega

variable {c} {xs : List α}

lemma parse_of_more (h : c.cut xs = .more) : c.parse xs = ⟨[], none, xs⟩ := by
  rw [parse]
  split <;> simp_all

lemma parse_of_refuse {e : ε} (h : c.cut xs = .refuse e) : c.parse xs = ⟨[], some e, xs⟩ := by
  rw [parse]
  split <;> simp_all

lemma parse_of_frame {n : ℕ} (h : c.cut xs = .frame n) : c.parse xs = (c.parse (xs.drop n)).after [xs.take n] := by
  rw [parse]
  split <;> simp_all

lemma cut_append_frame {n : ℕ} (h : c.cut xs = .frame n) (ys : List α) :
    c.cut (xs ++ ys) = .frame n ∧ (xs ++ ys).take n = xs.take n ∧ (xs ++ ys).drop n = xs.drop n ++ ys := by
  have hle := c.le_length h
  refine ⟨?_, take_append_of_le_length hle, drop_append_of_le_length hle⟩
  rw [c.stable ys (by rw [h]; simp), h]

lemma parse_append (xs ys : List α) (h : (c.parse xs).refused = none) :
    c.parse (xs ++ ys) = (c.parse ((c.parse xs).rest ++ ys)).after (c.parse xs).frames := by
  induction xs using parse.induct c with
  | case1 xs hc => rw [parse_of_more hc, Parse.after_nil]
  | case2 xs e hc => rw [parse_of_refuse hc] at h; cases h
  | case3 xs k hc ih =>
    obtain ⟨hcut, htake, hdrop⟩ := cut_append_frame hc ys
    rw [parse_of_frame hc] at h ⊢
    rw [parse_of_frame hcut, htake, hdrop, ih h]
    simp

lemma parse_append_of_refused {e : ε} (ys : List α) (h : (c.parse xs).refused = some e) :
    c.parse (xs ++ ys) = { c.parse xs with rest := (c.parse xs).rest ++ ys } := by
  induction xs using parse.induct c with
  | case1 xs hc => rw [parse_of_more hc] at h; cases h
  | case2 xs e' hc =>
    have hcut : c.cut (xs ++ ys) = .refuse e' := by
      rw [c.stable ys (by rw [hc]; simp), hc]
    rw [parse_of_refuse hc, parse_of_refuse hcut]
  | case3 xs k hc ih =>
    obtain ⟨hcut, htake, hdrop⟩ := cut_append_frame hc ys
    rw [parse_of_frame hc] at h ⊢
    rw [parse_of_frame hcut, htake, hdrop, ih h]
    rfl

lemma parse_after_append {stream left : List α} {taken : List (List α)}
    (h : c.parse stream = (c.parse left).after taken) (ys : List α) :
    c.parse (stream ++ ys) = (c.parse (left ++ ys)).after taken := by
  cases hr : (c.parse left).refused with
  | none =>
    have hs : (c.parse stream).refused = none := by rw [h]; exact hr
    rw [parse_append stream ys hs, parse_append left ys hr, h]
    simp
  | some e =>
    have hs : (c.parse stream).refused = some e := by rw [h]; exact hr
    rw [parse_append_of_refused ys hs, parse_append_of_refused ys hr, h]
    rfl

lemma refused_of_append {ys : List α} (h : (c.parse (xs ++ ys)).refused = none) : (c.parse xs).refused = none := by
  cases hr : (c.parse xs).refused with
  | none => rfl
  | some =>
    rw [parse_append_of_refused ys hr, hr] at h
    cases h

lemma cut_rest (h : (c.parse xs).refused = none) : c.cut (c.parse xs).rest = .more := by
  induction xs using parse.induct c with
  | case1 xs hc => rw [parse_of_more hc]; exact hc
  | case2 xs e hc => rw [parse_of_refuse hc] at h; cases h
  | case3 xs k hc ih =>
    rw [parse_of_frame hc] at h ⊢
    exact ih h

def IsFrame (c : Cutter α ε) (f : List α) : Prop := c.cut f = .frame f.length

lemma parse_flatten {frames : List (List α)} (h : ∀ f ∈ frames, c.IsFrame f) (ys : List α) :
    c.parse (frames.flatten ++ ys) = (c.parse ys).after frames := by
  induction frames with
  | nil => rfl
  | cons f frames ih =>
    obtain ⟨hf, hrest⟩ := forall_mem_cons.mp h
    obtain ⟨hcut, htake, hdrop⟩ := cut_append_frame hf (frames.flatten ++ ys)
    rw [flatten_cons, append_assoc, parse_of_frame hcut, htake, hdrop, take_length, drop_length, nil_append, ih hrest]
    simp

def unfinished : List (List α) → ℕ → ℕ
  | [], k => k
  | f :: frames, k => if f.length ≤ k then unfinished frames (k - f.length) else k

lemma unfinished_le (frames : List (List α)) (k : ℕ) : unfinished frames k ≤ k := by
  induction frames generalizing k with
  | nil => exact Nat.le_refl k
  | cons f frames ih =>
    rw [unfinished]
    split
    · exact Nat.le_trans (ih _) (Nat.sub_le _ _)
    · exact Nat.le_refl k

lemma cut_of_lt {f ys : List α} (hf : c.IsFrame f) (hsplit : xs ++ ys = f) (hlt : xs.length < f.length) :
    c.cut xs = .more := by
  by_contra hne
  have hcut := c.stable ys hne
  rw [hsplit, hf] at hcut
  have hle := c.le_length hcut.symm
  omega

lemma length_rest {frames : List (List α)} (h : ∀ f ∈ frames, c.IsFrame f) {ys : List α}
    (hsplit : xs ++ ys = frames.flatten) : (c.parse xs).rest.length = unfinished frames xs.length := by
  induction frames generalizing xs with
  | nil =>
    obtain ⟨rfl, -⟩ := append_eq_nil_iff.mp hsplit
    cases hc : c.cut ([] : List α) with
    | more => rw [parse_of_more hc, unfinished]
    | refuse => rw [parse_of_refuse hc, unfinished]
    | frame =>
      have hpos := c.pos hc
      have hle := c.le_length hc
      rw [length_nil] at hle
      omega
  | cons f frames ih =>
    obtain ⟨hf, hrest⟩ := forall_mem_cons.mp h
    rw [flatten_cons] at hsplit
    rw [unfinished]
    by_cases hle : f.length ≤ xs.length
    · obtain ⟨xs', rfl⟩ : ∃ xs', xs = f ++ xs' := by
        obtain ⟨zs, hzs, -⟩ | ⟨zs, hzs, -⟩ := append_eq_append_iff.mp hsplit
        · have hlen := congrArg length hzs
          rw [length_append] at hlen
          obtain rfl : zs = [] := length_eq_zero_iff.mp (by omega)
          exact ⟨[], by rw [hzs, append_nil, append_nil]⟩
        · exact ⟨zs, hzs⟩
      rw [append_assoc, append_cancel_left_eq] at hsplit
      have hcut : c.cut (f ++ xs') = .frame f.length := (cut_append_frame hf xs').1
      rw [if_pos hle, parse_of_frame hcut, drop_left, Parse.rest_after, ih hrest hsplit, length_append,
        Nat.add_sub_cancel_left]
    · have hlt : xs.length < f.length := Nat.not_le.mp hle
      obtain ⟨zs, hzs, -⟩ | ⟨zs, hzs, -⟩ := append_eq_append_iff.mp hsplit
      · rw [if_neg hle, parse_of_more (cut_of_lt hf hzs.symm hlt)]
      · rw [hzs, length_append] at hlt
        omega

end Cutter

end AurixVoice
