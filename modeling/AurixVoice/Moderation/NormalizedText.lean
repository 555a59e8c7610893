import Mathlib.Data.List.Destutter

/-! The text the lexicon is matched against, as `normalize_text` makes it, without the spans. Unicode is a parameter. -/

namespace AurixVoice.Moderation

open List

abbrev Text := List Char

def isLeetSymbol (c : Char) : Bool := ['@', '$', '!', '|', '¡', '€', '^', '§'].contains c

def leetSymbol (c : Char) (leftAlnum rightAlnum : Bool) : Option Char :=
  let inside := leftAlnum && rightAlnum
  let attached := leftAlnum || rightAlnum
  if c = '@' ∧ attached then some 'a'
  else if (c = '$' ∨ c = '§') ∧ attached then some 's'
  else if c = '€' ∧ attached then some 'e'
  else if c = '^' ∧ attached then some 'a'
  else if (c = '!' ∨ c = '|' ∨ c = '¡') ∧ inside then some 'i'
  else none

def isZeroWidth (c : Char) : Bool :=
  (0x200B ≤ c.toNat && c.toNat ≤ 0x200F) || [0xAD, 0x2060, 0xFEFF, 0x34F, 0x180E].contains c.toNat

def lookalikes : List (Char × Char) :=
  [('0', 'o'), ('1', 'i'), ('3', 'e'), ('4', 'a'), ('5', 's'), ('7', 't'), ('8', 'b'), ('9', 'g'), ('а', 'a'),
    ('е', 'e'), ('ё', 'e'), ('о', 'o'), ('р', 'p'), ('с', 'c'), ('у', 'y'), ('х', 'x'), ('к', 'k'), ('м', 'm'),
    ('т', 't'), ('в', 'b'), ('н', 'h'), ('і', 'i'), ('ј', 'j'), ('ѕ', 's'), ('ԁ', 'd'), ('ɡ', 'g'), ('ß', 's'),
    ('ł', 'l'), ('ø', 'o'), ('æ', 'a'), ('œ', 'o'), ('đ', 'd'), ('ı', 'i')]

def foldChar (c : Char) : Option Char := if isZeroWidth c then none else some ((lookalikes.lookup c).getD c)

def isJoiner (c : Char) : Bool :=
  [' ', '.', '-', '_', '*', '·', '•', '~', '\x27', '\x60', ',', '/', '\x5c'].contains c

/-- The tables of Unicode that the code reads, and what they say of the characters it strips: none of these
has another lower case, and no combining mark decomposes into anything but combining marks. -/
structure Unicode where
  isAlphanumeric : Char → Bool
  toLowercase : Char → List Char
  nfkd : Char → List Char
  isCombiningMark : Char → Bool
  zeroWidth_kept : ∀ c, isZeroWidth c = true → (toLowercase c).flatMap nfkd = [c]
  combiningMark_kept : ∀ c, isCombiningMark c = true →
    ∀ d ∈ (toLowercase c).flatMap nfkd, isCombiningMark d = true
  symbol_not_combiningMark : ∀ c, isLeetSymbol c = true → isCombiningMark c = false

namespace Unicode

variable (u : Unicode)

def nearestAlnum (cs : Text) : Bool := (cs.find? fun c => !isLeetSymbol c).any u.isAlphanumeric

def folded (ch decomposed : Char) : Option Char :=
  if u.isCombiningMark decomposed then none
  else (foldChar decomposed).map fun folded =>
    if u.isAlphanumeric folded then folded else if isJoiner ch then '\u0001' else ' '

def unitsOf (left right : Text) (ch : Char) : Text :=
  match if isLeetSymbol ch then leetSymbol ch (u.nearestAlnum left) (u.nearestAlnum right) else none with
  | some letter => [letter]
  | none => ((u.toLowercase ch).flatMap u.nfkd).filterMap (u.folded ch)

def units (left : Text) : Text → Text
  | [] => []
  | ch :: right => u.unitsOf left right ch ++ units (ch :: left) right

structure Token where
  chars : Text
  joinerBefore : Bool

structure Tokens where
  tokens : List Token := []
  pendingJoiner : Bool := false
  pendingBreak : Bool := false

def Tokens.push (s : Tokens) (ch : Char) : Tokens :=
  if u.isAlphanumeric ch then
    match s.tokens, s.pendingJoiner || s.pendingBreak with
    | last :: before, false => ⟨{ last with chars := last.chars ++ [ch] } :: before, false, false⟩
    | tokens, _ => ⟨⟨[ch], s.pendingJoiner && !s.pendingBreak⟩ :: tokens, false, false⟩
  else if ch = '\u0001' then ⟨s.tokens, true, s.pendingBreak || s.pendingJoiner⟩
  else ⟨s.tokens, false, true⟩

def spacedOut (t : Token) (rest : List Token) : List Token :=
  if t.chars.length = 1 then rest.takeWhile fun next => next.chars.length = 1 && next.joinerBefore else []

def merged : ℕ → List Token → List Text
  | _, [] => []
  | skip + 1, _ :: rest => merged skip rest
  | 0, t :: rest =>
    let run := spacedOut t rest
    if 2 ≤ run.length then (t.chars ++ run.flatMap Token.chars) :: merged run.length rest
    else t.chars :: merged 0 rest

def normalizeText (input : Text) : Text :=
  let tokens := ((u.units [] input).foldl (Tokens.push u) {}).tokens.reverse
  [' '].intercalate ((merged 0 tokens).map (destutter (· ≠ ·)))

structure LexiconRule where
  normalized : Text
  substring : Bool

def finds (rule : LexiconRule) (text : Text) : Bool :=
  let haystack := u.normalizeText text
  (range (haystack.length + 1)).any fun start =>
    rule.normalized.isPrefixOf (haystack.drop start) &&
      (rule.substring || ((start == 0 || haystack[start - 1]? == some ' ') &&
        ((haystack.drop (start + rule.normalized.length)).head?.getD ' ' == ' ')))

def Invisible (c : Char) : Prop := isZeroWidth c = true ∨ u.isCombiningMark c = true

variable {c : Char}

lemma forall_symbol {p : Char → Bool} (hall : ['@', '$', '!', '|', '¡', '€', '^', '§'].all p = true)
    (hc : isLeetSymbol c = true) : p c = true :=
  all_eq_true.mp hall c (contains_iff_mem.mp hc)

variable {u} in
lemma Invisible.not_symbol (h : u.Invisible c) : isLeetSymbol c = false := by
  obtain h | h := h
  · by_contra hsymbol
    have hnone := forall_symbol (p := fun d => !isZeroWidth d) (by decide) (Bool.not_eq_false _ ▸ hsymbol)
    simp [h] at hnone
  · by_contra hsymbol
    rw [u.symbol_not_combiningMark c (Bool.not_eq_false _ ▸ hsymbol)] at h
    cases h

variable {u} in
lemma Invisible.unitsOf (h : u.Invisible c) (left right : Text) : u.unitsOf left right c = [] := by
  have hfolded : ∀ d ∈ (u.toLowercase c).flatMap u.nfkd, u.folded c d = none := by
    intro d hd
    obtain h | h := h
    · rw [u.zeroWidth_kept c h, mem_singleton] at hd
      simp [folded, foldChar, hd, h]
    · simp [folded, u.combiningMark_kept c h d hd]
  simp only [Unicode.unitsOf, h.not_symbol, Bool.false_eq_true, if_false]
  exact filterMap_eq_nil_iff.mpr hfolded

abbrev Marked := List (Char × Bool)

def shown (text : Marked) : Text := text.map Prod.fst

def original (text : Marked) : Text := (text.filter fun p => !p.2).map Prod.fst

def Agree (text : Marked) : Prop := u.nearestAlnum (shown text) = u.nearestAlnum (original text)

/-- The look-around from a symbol that stands for a letter ends at a letter or digit on each side with the
inserted characters just when it does without them. -/
def Unnoticed (left : Marked) : Marked → Prop
  | [] => True
  | p :: right => (isLeetSymbol p.1 = true → u.Agree left ∧ u.Agree right) ∧ Unnoticed (p :: left) right

lemma units_original {left right : Marked} (hinserted : ∀ p ∈ right, p.2 = true → u.Invisible p.1)
    (h : u.Unnoticed left right) : u.units (shown left) (shown right) = u.units (original left) (original right) := by
  induction right generalizing left with
  | nil => rfl
  | cons p right ih =>
    obtain ⟨c, inserted⟩ := p
    obtain ⟨hsymbol, hrest⟩ := h
    have hunits := ih (fun q hq => hinserted q (mem_cons_of_mem _ hq)) hrest
    cases inserted with
    | true =>
      have hempty := (hinserted (c, true) mem_cons_self rfl).unitsOf (shown left) (shown right)
      change u.unitsOf (shown left) (shown right) c ++ u.units (shown ((c, true) :: left)) (shown right) = _
      rw [hempty, nil_append, hunits]
      rfl
    | false =>
      have hhead : u.unitsOf (shown left) (shown right) c = u.unitsOf (original left) (original right) c := by
        unfold unitsOf
        by_cases hc : isLeetSymbol c = true
        · obtain ⟨hleft, hright⟩ := hsymbol hc
          rw [hleft, hright]
        · rw [if_neg hc, if_neg hc]
      change u.unitsOf (shown left) (shown right) c ++ u.units (shown ((c, false) :: left)) (shown right) = _
      rw [hhead, hunits]
      rfl

/-- Characters that are stripped change neither the text nor what the lexicon finds, if the look-around of no
symbol notices them. -/
theorem invisible_characters_ignored (text : Marked) (hinserted : ∀ p ∈ text, p.2 = true → u.Invisible p.1)
    (h : u.Unnoticed [] text) :
    u.normalizeText (shown text) = u.normalizeText (original text) ∧
      ∀ rule, u.finds rule (shown text) = u.finds rule (original text) := by
  have htext : u.normalizeText (shown text) = u.normalizeText (original text) := by
    have hunits : u.units [] (shown text) = u.units [] (original text) := u.units_original hinserted h
    rw [normalizeText, hunits]
    rfl
  refine ⟨htext, ?_⟩
  intro rule
  rw [finds, htext]
  rfl

lemma toLower_eq_self (h : 91 ≤ c.toNat) : c.toLower = c := by
  unfold Char.toLower
  rw [dif_neg]
  rintro ⟨-, hle⟩
  have hle : c.toNat ≤ 90 := hle
  omega

lemma zeroWidth_toLower (h : isZeroWidth c = true) : [c.toLower].flatMap (fun c => [c]) = [c] := by
  have hle : 91 ≤ c.toNat := by
    simp only [isZeroWidth, contains_cons, contains_nil, Bool.or_eq_true, Bool.and_eq_true,
      decide_eq_true_eq, beq_iff_eq, Bool.or_false] at h
    omega
  rw [toLower_eq_self hle]
  rfl

lemma combiningMark_toLower (h : (0x300 ≤ c.toNat && c.toNat < 0x370) = true) :
    ∀ d ∈ [c.toLower].flatMap (fun c => [c]), (0x300 ≤ d.toNat && d.toNat < 0x370) = true := by
  have hle : 91 ≤ c.toNat := by
    simp only [Bool.and_eq_true, decide_eq_true_eq] at h
    omega
  intro d hd
  rw [toLower_eq_self hle, flatMap_singleton, mem_singleton] at hd
  rw [hd]
  exact h

lemma symbol_not_mark (h : isLeetSymbol c = true) : (0x300 ≤ c.toNat && c.toNat < 0x370) = false := by
  have hnone := forall_symbol (p := fun c => !(0x300 ≤ c.toNat && c.toNat < 0x370)) (by decide) h
  rwa [Bool.not_eq_true'] at hnone

def ascii : Unicode where
  isAlphanumeric := Char.isAlphanum
  toLowercase c := [c.toLower]
  nfkd c := [c]
  isCombiningMark c := 0x300 ≤ c.toNat && c.toNat < 0x370
  zeroWidth_kept _ := zeroWidth_toLower
  combiningMark_kept _ := combiningMark_toLower
  symbol_not_combiningMark _ := symbol_not_mark

theorem invisible_characters_ignored_accented :
    ascii.normalizeText ['s', '\u200b', 'h', '!', 't', '\u0301'] = ascii.normalizeText ['s', 'h', '!', 't'] := by
  have hinserted : ∀ p ∈ [('s', false), ('\u200b', true), ('h', false), ('!', false), ('t', false), ('\u0301', true)],
      p.2 = true → ascii.Invisible p.1 := by
    unfold Invisible
    decide
  refine (ascii.invisible_characters_ignored _ hinserted ?_).1
  simp only [Unnoticed, Agree]
  decide

theorem invisible_character_noticed : ∃ text : Marked, (∀ p ∈ text, p.2 = true → ascii.Invisible p.1) ∧
    ascii.normalizeText (original text) = ['s', 'h', 'i', 't'] ∧
    ascii.normalizeText (shown text) = ['s', 'h', ' ', 't'] ∧
    ascii.finds ⟨['s', 'h', 'i', 't'], true⟩ (original text) = true ∧
    ascii.finds ⟨['s', 'h', 'i', 't'], true⟩ (shown text) = false := by
  refine ⟨[('s', false), ('h', false), ('\u200b', true), ('!', false), ('t', false)], ?_, ?_, ?_, ?_, ?_⟩
  · unfold Invisible
    decide
  all_goals decide +kernel

end Unicode

end AurixVoice.Moderation
