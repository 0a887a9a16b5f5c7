import Mathlib.Data.List.TakeDrop
import Mathlib.Tactic.Common

/-!
# POSIX extended regular expressions

An engine for the expressions of `regcomp(3)` with `REG_EXTENDED`: the leftmost
match, the longest there, and inside it each subpattern from left to right as long
as the whole allows. `exec r i w t` decides whether `r` matches the whole word `w`
standing at offset `i` with the text `t` behind it, and returns the spans of the
groups; `search` tries the offsets from left to right and the words at an offset
from long to short.

`Parses` is the language with its groups, without the priorities; `exec_sound` and
`exec_complete` relate the two. A proof about one expression inverts `Parses`,
and uses `search_spec`, `search_of` and `search_none` for the leftmost longest part.
-/

namespace Posix

abbrev Str := List Char

instance : LawfulBEq Str := inferInstanceAs (LawfulBEq (List Char))

/-- A span of the subject, `regmatch_t`. -/
structure Span where
  so : Nat
  eo : Nat
  deriving DecidableEq, Repr

/-- The spans set so far, the latest first. -/
abbrev Groups := List (Nat × Span)

inductive Regex where
  | eps
  | set (p : Char → Bool)
  | bol
  | eol
  | seq (a b : Regex)
  | alt (a b : Regex)
  | star (a : Regex)
  | group (g : Nat) (a : Regex)

namespace Regex

def lit (c : Char) : Regex := set (· == c)

def opt (a : Regex) : Regex := alt a eps

def plus (a : Regex) : Regex := seq a (star a)

/-- The letters of `s` one after the other. -/
def word : Str → Regex
  | [] => eps
  | [c] => lit c
  | c :: s => seq (lit c) (word s)

/-- One of several words, the earlier ones first. -/
def words : List Str → Regex
  | [] => set fun _ => false
  | [s] => word s
  | s :: l => alt (word s) (words l)

end Regex

open Regex

/-- The first split of `w` that `f` accepts, the longest left part first. -/
def splits {α : Type} (f : Str → Str → Option α) : Nat → Str → Option α
  | 0, w => f [] w
  | k + 1, w => (f (w.take (k + 1)) (w.drop (k + 1))).orElse fun _ => splits f k w

/-- Iterations of `f` over the word, no iteration empty, the first as long as possible. -/
def iter (f : Nat → Str → Str → Option Groups) : Nat → Nat → Str → Str → Option Groups
  | _, _, [], _ => some []
  | 0, _, _ :: _, _ => none
  | k + 1, i, c :: w, t =>
    splits (fun u v => if u.isEmpty then none else
      (f i u (v ++ t)).bind fun g => (iter f k (i + u.length) v t).map (· ++ g))
      (w.length + 1) (c :: w)

/-- Does `r` match the whole of `w` at offset `i`, with `t` behind it? -/
def exec : Regex → Nat → Str → Str → Option Groups
  | .eps, _, w, _ => if w.isEmpty then some [] else none
  | .set p, _, w, _ => match w with
    | [c] => if p c then some [] else none
    | _ => none
  | .bol, i, w, _ => if i == 0 && w.isEmpty then some [] else none
  | .eol, _, w, t => if w.isEmpty && t.isEmpty then some [] else none
  | .seq a b, i, w, t => splits (fun u v => (exec a i u (v ++ t)).bind fun g =>
      (exec b (i + u.length) v t).map (· ++ g)) w.length w
  | .alt a b, i, w, t => (exec a i w t).orElse fun _ => exec b i w t
  | .star a, i, w, t => iter (exec a) w.length i w t
  | .group n a, i, w, t => (exec a i w t).map fun g => (n, ⟨i, i + w.length⟩) :: g

/-- The language of an expression with the spans a parse sets. -/
inductive Parses : Regex → Nat → Str → Str → Groups → Prop where
  | eps {i t} : Parses .eps i [] t []
  | set {p : Char → Bool} {i c t} (h : p c = true) : Parses (.set p) i [c] t []
  | bol {t} : Parses .bol 0 [] t []
  | eol {i} : Parses .eol i [] [] []
  | seq {a b i u v t g g'} (left : Parses a i u (v ++ t) g)
      (right : Parses b (i + u.length) v t g') : Parses (.seq a b) i (u ++ v) t (g' ++ g)
  | altL {a b i w t g} (h : Parses a i w t g) : Parses (.alt a b) i w t g
  | altR {a b i w t g} (h : Parses b i w t g) : Parses (.alt a b) i w t g
  | starNil {a i t} : Parses (.star a) i [] t []
  | starCons {a i u v t g g'} (ne : u ≠ []) (left : Parses a i u (v ++ t) g)
      (right : Parses (.star a) (i + u.length) v t g') : Parses (.star a) i (u ++ v) t (g' ++ g)
  | group {n a i w t g} (h : Parses a i w t g) :
      Parses (.group n a) i w t ((n, ⟨i, i + w.length⟩) :: g)

/-! ## The splits of a word -/

theorem splits_sound {α : Type} {f : Str → Str → Option α} {k : Nat} {w : Str} {x : α}
    (h : splits f k w = some x) : ∃ u v, w = u ++ v ∧ f u v = some x := by
  induction k with
  | zero => exact ⟨[], w, rfl, h⟩
  | succ k ih =>
    rw [splits] at h
    cases e : f (w.take (k + 1)) (w.drop (k + 1)) with
    | none => rw [e] at h; exact ih h
    | some y =>
      rw [e] at h
      exact ⟨_, _, (List.take_append_drop (k + 1) w).symm, e.trans h⟩

/-- The split taken is the one with the longest left part. -/
theorem splits_of {α : Type} {f : Str → Str → Option α} {k : Nat} {u v : Str} {x : α}
    (hk : u.length ≤ k) (hw : k ≤ (u ++ v).length) (h : f u v = some x)
    (long : ∀ u' v', u ++ v = u' ++ v' → u.length < u'.length → f u' v' = none) :
    splits f k (u ++ v) = some x := by
  induction k with
  | zero =>
    obtain rfl : u = [] := List.eq_nil_of_length_eq_zero (by omega)
    exact h
  | succ k ih =>
    rw [splits]
    by_cases e : u.length = k + 1
    · rw [← e, List.take_left, List.drop_left, h]; rfl
    · rw [long _ _ (List.take_append_drop _ _).symm (by rw [List.length_take]; omega)]
      exact ih (by omega) (by omega)

/-- Some split is accepted as soon as one can be. -/
theorem splits_complete {α : Type} {f : Str → Str → Option α} {k : Nat} {u v : Str} {x : α}
    (hk : u.length ≤ k) (hw : k ≤ (u ++ v).length) (h : f u v = some x) :
    ∃ y, splits f k (u ++ v) = some y := by
  induction k with
  | zero =>
    obtain rfl : u = [] := List.eq_nil_of_length_eq_zero (by omega)
    exact ⟨x, h⟩
  | succ k ih =>
    rw [splits]
    by_cases e : u.length = k + 1
    · exact ⟨x, by rw [← e, List.take_left, List.drop_left, h]; rfl⟩
    · cases f ((u ++ v).take (k + 1)) ((u ++ v).drop (k + 1)) with
      | some y => exact ⟨y, rfl⟩
      | none => exact ih (by omega) (by omega)

theorem splits_congr {α : Type} {f f' : Str → Str → Option α} {k : Nat} {w : Str}
    (h : ∀ u v, w = u ++ v → f u v = f' u v) : splits f k w = splits f' k w := by
  induction k with
  | zero => exact h [] w rfl
  | succ k ih => rw [splits, splits, ih, h _ _ (List.take_append_drop (k + 1) w).symm]

/-! ## The engine and the language -/

/-- Rounds beyond one per letter change nothing. -/
theorem iter_fuel {f : Nat → Str → Str → Option Groups} {k m i : Nat} {w t : Str}
    (hk : w.length ≤ k) (hm : w.length ≤ m) : iter f k i w t = iter f m i w t := by
  induction k generalizing i w m with
  | zero =>
    obtain rfl : w = [] := List.eq_nil_of_length_eq_zero (by omega)
    cases m <;> rfl
  | succ k ih =>
    cases w with
    | nil => cases m <;> rfl
    | cons c w =>
      cases m with
      | zero => simp at hm
      | succ m =>
        rw [iter, iter]
        refine splits_congr fun u v e => ?_
        cases u with
        | nil => rfl
        | cons d u =>
          obtain ⟨rfl, rfl⟩ := List.cons.inj e
          simp only [List.length_cons, List.append_eq, List.length_append] at hk hm
          rw [ih (m := m) (by omega) (by omega)]

theorem iter_sound {a : Regex} {f : Nat → Str → Str → Option Groups}
    (hf : ∀ i w t g, f i w t = some g → Parses a i w t g) {k i : Nat} {w t : Str} {g : Groups}
    (h : iter f k i w t = some g) : Parses (.star a) i w t g := by
  induction k generalizing i w g with
  | zero =>
    cases w with
    | nil => cases h; exact .starNil
    | cons c w => cases h
  | succ k ih =>
    cases w with
    | nil => cases h; exact .starNil
    | cons c w =>
      obtain ⟨u, v, e, h⟩ := splits_sound h
      rw [e]
      by_cases ne : u = []
      · subst ne; cases h
      · simp only [List.isEmpty_iff, ne, if_false, Option.bind_eq_some_iff, Option.map_eq_some_iff] at h
        obtain ⟨g₁, left, g₂, right, rfl⟩ := h
        exact .starCons ne (hf _ _ _ _ left) (ih right)

theorem exec_sound {r : Regex} {i : Nat} {w t : Str} {g : Groups} (h : exec r i w t = some g) :
    Parses r i w t g := by
  induction r generalizing i w t g with
  | eps => cases w <;> cases h; exact .eps
  | set p =>
    match w, h with
    | [c], h =>
      simp only [exec] at h
      split at h
      · rename_i hp
        cases h
        exact .set hp
      · cases h
  | bol =>
    simp only [exec] at h
    split at h
    · rename_i e
      simp only [Bool.and_eq_true, beq_iff_eq, List.isEmpty_iff] at e
      obtain ⟨rfl, rfl⟩ := e
      cases h
      exact .bol
    · cases h
  | eol =>
    simp only [exec] at h
    split at h
    · rename_i e
      simp only [Bool.and_eq_true, List.isEmpty_iff] at e
      obtain ⟨rfl, rfl⟩ := e
      cases h
      exact .eol
    · cases h
  | seq a b iha ihb =>
    obtain ⟨u, v, rfl, split⟩ := splits_sound h
    obtain ⟨g₁, left, rest⟩ := Option.bind_eq_some_iff.1 split
    obtain ⟨g₂, right, rfl⟩ := Option.map_eq_some_iff.1 rest
    exact .seq (iha left) (ihb right)
  | alt a b iha ihb =>
    change (exec a i w t).orElse _ = _ at h
    cases e : exec a i w t with
    | none => rw [e] at h; exact .altR (ihb h)
    | some y => rw [e] at h; cases h; exact .altL (iha e)
  | star a iha => exact iter_sound (fun _ _ _ _ => iha) h
  | group n a iha =>
    simp only [exec, Option.map_eq_some_iff] at h
    obtain ⟨g₁, h, rfl⟩ := h
    exact .group (iha h)

theorem exec_complete {r : Regex} {i : Nat} {w t : Str} {g : Groups} (h : Parses r i w t g) :
    ∃ g', exec r i w t = some g' := by
  induction h with
  | eps => exact ⟨_, rfl⟩
  | set h => exact ⟨[], by simp [exec, h]⟩
  | bol => exact ⟨_, rfl⟩
  | eol => exact ⟨_, rfl⟩
  | seq _ _ iha ihb =>
    obtain ⟨g₁, left⟩ := iha
    obtain ⟨g₂, right⟩ := ihb
    exact splits_complete (x := g₂ ++ g₁) (by simp) (Nat.le_refl _)
      (by simp only [left, right, Option.bind_some, Option.map_some])
  | altL _ ih =>
    obtain ⟨g, h⟩ := ih
    exact ⟨g, by simp only [exec, h]; rfl⟩
  | @altR a _ i w t _ _ ih =>
    obtain ⟨g, h⟩ := ih
    simp only [exec, h]
    cases exec a i w t <;> exact ⟨_, rfl⟩
  | starNil => exact ⟨[], rfl⟩
  | @starCons a i u v t _ _ ne _ _ iha ihb =>
    obtain ⟨g₁, left⟩ := iha
    obtain ⟨g₂, right⟩ := ihb
    cases u with
    | nil => exact absurd rfl ne
    | cons d u =>
      have right' : iter (exec a) (u ++ v).length (i + (d :: u).length) v t = some g₂ := by
        rw [iter_fuel (m := v.length) (by simp) (Nat.le_refl _)]; exact right
      refine splits_complete (u := d :: u) (x := g₂ ++ g₁) (by simp) (by simp) ?_
      change ((exec a i (d :: u) (v ++ t)).bind fun g =>
        (iter (exec a) (u ++ v).length (i + (d :: u).length) v t).map (· ++ g)) = _
      rw [left, right']; rfl
  | group _ ih =>
    obtain ⟨g, h⟩ := ih
    exact ⟨_, by rw [exec, h]; rfl⟩

theorem exec_eq_none {r : Regex} {i : Nat} {w t : Str} (h : ∀ g, ¬ Parses r i w t g) :
    exec r i w t = none := by
  cases e : exec r i w t with
  | none => rfl
  | some g => exact absurd (exec_sound e) (h g)

/-! ## The leftmost longest match -/

/-- A match, `regmatch_t[]`: where it starts, its length and the spans of its groups. -/
structure Match where
  so : Nat
  len : Nat
  groups : Groups
  deriving DecidableEq, Repr

/-- The longest word that matches at the front of `s`. -/
def longest (r : Regex) (i : Nat) (s : Str) : Option Match :=
  splits (fun w t => (exec r i w t).map fun g => ⟨i, w.length, g⟩) s.length s

/-- The leftmost longest match in `s`, whose first letter stands at offset `i`. -/
def search (r : Regex) : Nat → Str → Option Match
  | i, [] => longest r i []
  | i, c :: s => (longest r i (c :: s)).orElse fun _ => search r (i + 1) s

/-- `regexec(3)` on a subject without an embedded NUL. -/
def regexec (r : Regex) (s : Str) : Option Match := search r 0 s

/-- The span of group `n`, `none` for `rm_so == -1`. -/
def Match.group (m : Match) (n : Nat) : Option Span := m.groups.lookup n

/-- The letters of a span, `substr(so, eo - so)`. -/
def Span.text (p : Span) (s : Str) : Str := (s.drop p.so).take (p.eo - p.so)

theorem Span.mem_text {p : Span} {s : Str} {c : Char} (mem : c ∈ p.text s) : c ∈ s :=
  List.mem_of_mem_drop (List.mem_of_mem_take mem)

theorem longest_sound {r : Regex} {i : Nat} {s : Str} {m : Match} (h : longest r i s = some m) :
    ∃ w t, s = w ++ t ∧ m.so = i ∧ m.len = w.length ∧ Parses r i w t m.groups := by
  obtain ⟨w, t, e, h⟩ := splits_sound h
  obtain ⟨g, run, rfl⟩ := Option.map_eq_some_iff.1 h
  exact ⟨w, t, e, rfl, rfl, exec_sound run⟩

theorem longest_none {r : Regex} {i : Nat} {s : Str} :
    longest r i s = none ↔ ∀ w t g, s = w ++ t → ¬ Parses r i w t g := by
  constructor
  · rintro h w t g rfl parse
    obtain ⟨g', e⟩ := exec_complete parse
    obtain ⟨y, hy⟩ := splits_complete (f := fun w t => (exec r i w t).map fun g => (⟨i, w.length, g⟩ : Match))
      (u := w) (v := t) (by simp) (Nat.le_refl _) (by rw [e]; rfl)
    rw [longest, hy] at h
    cases h
  · intro h
    cases e : longest r i s with
    | none => rfl
    | some m =>
      obtain ⟨w, t, e, -, -, parse⟩ := longest_sound e
      exact absurd parse (h w t _ e)

theorem longest_of {r : Regex} {i : Nat} {w t : Str} {g : Groups} (h : exec r i w t = some g)
    (long : ∀ w' t', w ++ t = w' ++ t' → w.length < w'.length → ∀ g, ¬ Parses r i w' t' g) :
    longest r i (w ++ t) = some ⟨i, w.length, g⟩ :=
  splits_of (by simp) (Nat.le_refl _) (by rw [h]; rfl)
    fun w' t' e lt => by rw [exec_eq_none (long w' t' e lt)]; rfl

/-- A match found is a parse of a word of the subject. -/
theorem search_sound {r : Regex} {i : Nat} {s : Str} {m : Match} (h : search r i s = some m) :
    ∃ p w t, s = p ++ w ++ t ∧ m.so = i + p.length ∧ m.len = w.length ∧ Parses r m.so w t m.groups := by
  induction s generalizing i with
  | nil =>
    obtain ⟨w, t, e, so, len, parse⟩ := longest_sound h
    exact ⟨[], w, t, e, by simpa using so, len, by rw [so]; exact parse⟩
  | cons c s ih =>
    rw [search] at h
    cases e : longest r i (c :: s) with
    | some m' =>
      rw [e] at h
      cases h
      obtain ⟨w, t, e, so, len, parse⟩ := longest_sound e
      exact ⟨[], w, t, e, by simpa using so, len, by rw [so]; exact parse⟩
    | none =>
      rw [e] at h
      obtain ⟨p, w, t, rfl, so, len, parse⟩ := ih h
      exact ⟨c :: p, w, t, rfl, by rw [so, List.length_cons]; omega, len, parse⟩

/-- No match is found exactly when no word of the subject parses. -/
theorem search_none {r : Regex} {i : Nat} {s : Str} :
    search r i s = none ↔ ∀ p w t g, s = p ++ w ++ t → ¬ Parses r (i + p.length) w t g := by
  induction s generalizing i with
  | nil =>
    rw [search, longest_none]
    constructor
    · intro h p w t g e
      obtain ⟨rfl, rfl⟩ : p = [] ∧ w = [] := by simpa using (List.append_eq_nil_iff.1 e.symm).1
      exact h [] t g (by simpa using e)
    · intro h w t g e
      exact h [] w t g (by simpa using e)
  | cons c s ih =>
    have split : search r i (c :: s) = none ↔ longest r i (c :: s) = none ∧ search r (i + 1) s = none := by
      rw [search]
      cases longest r i (c :: s) <;> simp
    rw [split, longest_none, ih]
    constructor
    · rintro ⟨here, later⟩ p w t g e
      cases p with
      | nil => exact here w t g e
      | cons d p =>
        obtain ⟨rfl, rfl⟩ := List.cons.inj e
        have := later p w t g rfl
        rwa [Nat.add_right_comm] at this
    · intro h
      refine ⟨fun w t g e => h [] w t g e, fun p w t g e => ?_⟩
      have := h (c :: p) w t g (by rw [e]; rfl)
      rwa [List.length_cons, ← Nat.add_assoc, Nat.add_right_comm] at this

/-- The match found is the leftmost, and the longest there. -/
theorem search_of {r : Regex} {i : Nat} {p w t : Str} {g : Groups}
    (h : exec r (i + p.length) w t = some g)
    (left : ∀ p' w' t', p ++ w ++ t = p' ++ w' ++ t' → p'.length < p.length →
      ∀ g, ¬ Parses r (i + p'.length) w' t' g)
    (long : ∀ w' t', w ++ t = w' ++ t' → w.length < w'.length →
      ∀ g, ¬ Parses r (i + p.length) w' t' g) :
    search r i (p ++ w ++ t) = some ⟨i + p.length, w.length, g⟩ := by
  induction p generalizing i with
  | nil =>
    have here := longest_of h long
    rw [List.nil_append]
    rw [List.length_nil, Nat.add_zero] at here ⊢
    cases e : w ++ t with
    | nil => rw [search, ← e, here]
    | cons c s => rw [search, ← e, here]; rfl
  | cons c p ih =>
    have move : i + (c :: p).length = i + 1 + p.length := by rw [List.length_cons]; omega
    have skip : longest r i (c :: p ++ w ++ t) = none :=
      longest_none.2 fun w' t' g e => left [] w' t' (by simpa using e) (by simp) g
    rw [move] at h long ⊢
    change (longest r i (c :: p ++ w ++ t)).orElse (fun _ => search r (i + 1) (p ++ w ++ t)) = _
    rw [skip]
    refine ih h (fun p' w' t' e lt g parse => ?_) long
    refine left (c :: p') w' t' (by simpa using e) (by simpa using lt) g ?_
    rwa [List.length_cons, ← Nat.add_assoc, Nat.add_right_comm]

/-- Where a word parses and nothing earlier or longer does, the match is that word. -/
theorem search_exists {r : Regex} {i : Nat} {p w t : Str} {g : Groups} (h : Parses r (i + p.length) w t g)
    (left : ∀ p' w' t', p ++ w ++ t = p' ++ w' ++ t' → p'.length < p.length →
      ∀ g, ¬ Parses r (i + p'.length) w' t' g)
    (long : ∀ w' t', w ++ t = w' ++ t' → w.length < w'.length →
      ∀ g, ¬ Parses r (i + p.length) w' t' g) :
    ∃ g', search r i (p ++ w ++ t) = some ⟨i + p.length, w.length, g'⟩ ∧ Parses r (i + p.length) w t g' := by
  obtain ⟨g', run⟩ := exec_complete h
  exact ⟨g', search_of run left long, exec_sound run⟩

/-! ## The priorities of the engine -/

/-- The first alternative that matches is taken. -/
theorem exec_alt {a b : Regex} {i : Nat} {w t : Str} {g : Groups} (h : exec (.alt a b) i w t = some g) :
    exec a i w t = some g ∨ (exec a i w t = none ∧ exec b i w t = some g) := by
  change (exec a i w t).orElse _ = _ at h
  cases e : exec a i w t with
  | some y =>
    rw [e] at h
    exact .inl h
  | none =>
    rw [e] at h
    exact .inr ⟨rfl, h⟩

theorem splits_first {α : Type} {f : Str → Str → Option α} {k : Nat} {w : Str} {x : α}
    (h : splits f k w = some x) :
    ∃ u v, w = u ++ v ∧ f u v = some x ∧
      ∀ u' v', w = u' ++ v' → u.length < u'.length → u'.length ≤ k → f u' v' = none := by
  induction k with
  | zero => exact ⟨[], w, rfl, h, fun _ _ _ lt le => by simp at lt; omega⟩
  | succ k ih =>
    rw [splits] at h
    cases e : f (w.take (k + 1)) (w.drop (k + 1)) with
    | some y =>
      rw [e] at h
      refine ⟨_, _, (List.take_append_drop (k + 1) w).symm, e.trans h, ?_⟩
      intro u' v' e' lt le
      have : w.length = u'.length + v'.length := by rw [e', List.length_append]
      rw [List.length_take] at lt
      omega
    | none =>
      rw [e] at h
      obtain ⟨u, v, word, run, longest⟩ := ih h
      refine ⟨u, v, word, run, fun u' v' e' lt le => ?_⟩
      by_cases len : u'.length ≤ k
      · exact longest u' v' e' lt len
      · have len : u'.length = k + 1 := by omega
        rw [e', ← len, List.take_left, List.drop_left] at e
        exact e

/-- The first part of a sequence is the longest that leaves the second a match. -/
theorem exec_seq {a b : Regex} {i : Nat} {w t : Str} {g : Groups} (h : exec (.seq a b) i w t = some g) :
    ∃ u v ga gb, w = u ++ v ∧ g = gb ++ ga ∧ exec a i u (v ++ t) = some ga ∧
      exec b (i + u.length) v t = some gb ∧
      ∀ u' v', w = u' ++ v' → u.length < u'.length →
        ¬ ((∃ g, Parses a i u' (v' ++ t) g) ∧ ∃ g, Parses b (i + u'.length) v' t g) := by
  obtain ⟨u, v, e, split, longest⟩ := splits_first h
  obtain ⟨ga, left, rest⟩ := Option.bind_eq_some_iff.1 split
  obtain ⟨gb, right, rfl⟩ := Option.map_eq_some_iff.1 rest
  refine ⟨u, v, ga, gb, e, rfl, left, right, ?_⟩
  rintro u' v' e' lt ⟨⟨_, pa⟩, _, pb⟩
  obtain ⟨ga', left'⟩ := exec_complete pa
  obtain ⟨gb', right'⟩ := exec_complete pb
  have len : u'.length ≤ w.length := by rw [e', List.length_append]; omega
  have := longest u' v' e' lt len
  rw [left', Option.bind_some, right'] at this
  cases this

/-- A match found is a run of the engine on a word of the subject. -/
theorem search_exec {r : Regex} {i : Nat} {s : Str} {m : Match} (h : search r i s = some m) :
    ∃ p w t, s = p ++ w ++ t ∧ m.so = i + p.length ∧ m.len = w.length ∧ exec r m.so w t = some m.groups := by
  induction s generalizing i with
  | nil =>
    obtain ⟨w, t, word, split⟩ := splits_sound h
    obtain ⟨g, run, rfl⟩ := Option.map_eq_some_iff.1 split
    exact ⟨[], w, t, word, rfl, rfl, run⟩
  | cons c s ih =>
    rw [search] at h
    cases e : longest r i (c :: s) with
    | some m' =>
      rw [e] at h
      cases h
      obtain ⟨w, t, word, split⟩ := splits_sound e
      obtain ⟨g, run, rfl⟩ := Option.map_eq_some_iff.1 split
      exact ⟨[], w, t, word, rfl, rfl, run⟩
    | none =>
      rw [e] at h
      obtain ⟨p, w, t, rfl, so, len, run⟩ := ih h
      exact ⟨c :: p, w, t, rfl, by rw [so, List.length_cons]; omega, len, run⟩

/-- No parse where a longest match starts is longer. -/
theorem longest_first {r : Regex} {i : Nat} {s w t : Str} {m : Match} {g : Groups} (h : longest r i s = some m)
    (e : s = w ++ t) (parse : Parses r i w t g) : w.length ≤ m.len := by
  obtain ⟨u, v, word, run, long⟩ := splits_first h
  obtain ⟨g', -, rfl⟩ := Option.map_eq_some_iff.1 run
  by_contra lt
  have none := long w t e (Nat.lt_of_not_le lt) (by rw [e, List.length_append]; omega)
  obtain ⟨g₁, found⟩ := exec_complete parse
  rw [found] at none
  cases none

/-- No parse starts before the match found, and none that starts there is longer. -/
theorem search_first {r : Regex} {i : Nat} {s p w t : Str} {m : Match} {g : Groups} (h : search r i s = some m)
    (e : s = p ++ w ++ t) (parse : Parses r (i + p.length) w t g) :
    m.so ≤ i + p.length ∧ (m.so = i + p.length → w.length ≤ m.len) := by
  induction s generalizing i p with
  | nil =>
    obtain ⟨rfl, rfl⟩ : p = [] ∧ w = [] := by simpa using (List.append_eq_nil_iff.1 e.symm).1
    obtain ⟨u, v, -, so, -⟩ := longest_sound h
    exact ⟨by rw [so]; omega, fun _ => Nat.zero_le _⟩
  | cons c s ih =>
    rw [search] at h
    cases here : longest r i (c :: s) with
    | some m' =>
      rw [here] at h
      obtain rfl := Option.some.inj h
      obtain ⟨u, v, -, so, -⟩ := longest_sound here
      refine ⟨by omega, fun same => ?_⟩
      obtain rfl : p = [] := List.eq_nil_of_length_eq_zero (by omega)
      exact longest_first here e parse
    | none =>
      rw [here] at h
      cases p with
      | nil => exact absurd parse (longest_none.1 here w t g e)
      | cons d p =>
        obtain ⟨rfl, rest⟩ := List.cons.inj e
        rw [List.length_cons] at parse ⊢
        have move : i + (p.length + 1) = i + 1 + p.length := by omega
        rw [move] at parse ⊢
        exact ih h rest parse

/-! ## Group numbers -/

namespace Regex

/-- The groups of an expression. -/
def numbers : Regex → List Nat
  | group n a => n :: a.numbers
  | seq a b => a.numbers ++ b.numbers
  | alt a b => a.numbers ++ b.numbers
  | star a => a.numbers
  | _ => []

end Regex

theorem parses_numbers {r : Regex} {i : Nat} {w t : Str} {g : Groups} (h : Parses r i w t g) :
    ∀ e ∈ g, e.1 ∈ r.numbers := by
  induction h with
  | eps | set | bol | eol | starNil => simp
  | seq _ _ iha ihb =>
    intro e he
    rcases List.mem_append.1 he with he | he
    · exact List.mem_append_right _ (ihb e he)
    · exact List.mem_append_left _ (iha e he)
  | altL _ ih => exact fun e he => List.mem_append_left _ (ih e he)
  | altR _ ih => exact fun e he => List.mem_append_right _ (ih e he)
  | starCons _ _ _ iha ihb =>
    intro e he
    rcases List.mem_append.1 he with he | he
    · exact ihb e he
    · exact iha e he
  | group _ ih =>
    intro e he
    rcases List.mem_cons.1 he with rfl | he
    · exact List.mem_cons_self
    · exact List.mem_cons_of_mem _ (ih e he)

/-- A group of another number is not set. -/
theorem lookup_of_numbers {g : Groups} {l : List Nat} {n : Nat} (h : ∀ e ∈ g, e.1 ∈ l) (hn : n ∉ l) :
    g.lookup n = none := by
  rw [List.lookup_eq_none_iff]
  intro e he
  have ne : n ≠ e.1 := fun eq => hn (eq ▸ h e he)
  simpa using ne

/-! ## The parses of each operator -/

section Operators
variable {a b : Regex} {i n : Nat} {w t : Str} {g : Groups}

@[simp] theorem parses_set {p : Char → Bool} :
    Parses (.set p) i w t g ↔ ∃ c, w = [c] ∧ p c = true ∧ g = [] := by
  constructor
  · intro h
    cases h with
    | set h => exact ⟨_, rfl, h, rfl⟩
  · rintro ⟨c, rfl, h, rfl⟩
    exact .set h

@[simp] theorem parses_eps : Parses .eps i w t g ↔ w = [] ∧ g = [] := by
  constructor
  · intro h
    cases h
    exact ⟨rfl, rfl⟩
  · rintro ⟨rfl, rfl⟩
    exact .eps

@[simp] theorem parses_bol : Parses .bol i w t g ↔ i = 0 ∧ w = [] ∧ g = [] := by
  constructor
  · intro h
    cases h
    exact ⟨rfl, rfl, rfl⟩
  · rintro ⟨rfl, rfl, rfl⟩
    exact .bol

@[simp] theorem parses_eol : Parses .eol i w t g ↔ w = [] ∧ t = [] ∧ g = [] := by
  constructor
  · intro h
    cases h
    exact ⟨rfl, rfl, rfl⟩
  · rintro ⟨rfl, rfl, rfl⟩
    exact .eol

theorem parses_seq : Parses (.seq a b) i w t g ↔ ∃ u v ga gb, w = u ++ v ∧ g = gb ++ ga ∧
    Parses a i u (v ++ t) ga ∧ Parses b (i + u.length) v t gb := by
  constructor
  · intro h
    cases h with
    | seq left right => exact ⟨_, _, _, _, rfl, rfl, left, right⟩
  · rintro ⟨u, v, ga, gb, rfl, rfl, left, right⟩
    exact .seq left right

theorem parses_alt : Parses (.alt a b) i w t g ↔ Parses a i w t g ∨ Parses b i w t g := by
  constructor
  · intro h
    cases h with
    | altL h => exact .inl h
    | altR h => exact .inr h
  · rintro (h | h)
    · exact .altL h
    · exact .altR h

theorem parses_group : Parses (.group n a) i w t g ↔
    ∃ ga, g = (n, ⟨i, i + w.length⟩) :: ga ∧ Parses a i w t ga := by
  constructor
  · intro h
    cases h with
    | group h => exact ⟨_, rfl, h⟩
  · rintro ⟨ga, rfl, h⟩
    exact .group h

@[simp] theorem parses_lit {c : Char} : Parses (.lit c) i w t g ↔ w = [c] ∧ g = [] := by
  simp only [Regex.lit, parses_set, beq_iff_eq]
  constructor
  · rintro ⟨d, rfl, rfl, rfl⟩
    exact ⟨rfl, rfl⟩
  · rintro ⟨rfl, rfl⟩
    exact ⟨c, rfl, rfl, rfl⟩

@[simp] theorem parses_star_set {p : Char → Bool} :
    Parses (.star (.set p)) i w t g ↔ (∀ c ∈ w, p c = true) ∧ g = [] := by
  constructor
  · intro h
    generalize er : Regex.star (.set p) = r at h
    induction h with
    | starNil => exact ⟨by simp, rfl⟩
    | starCons ne left right _ ih =>
      cases er
      obtain ⟨c, rfl, hc, rfl⟩ := parses_set.1 left
      obtain ⟨rest, rfl⟩ := ih rfl
      refine ⟨?_, rfl⟩
      intro d hd
      rcases List.mem_cons.1 hd with rfl | hd
      · exact hc
      · exact rest d hd
    | _ => cases er
  · rintro ⟨h, rfl⟩
    induction w generalizing i with
    | nil => exact .starNil
    | cons c w ih =>
      have first : Parses (.set p) i [c] (w ++ t) [] := .set (h c (by simp))
      exact .starCons (by simp) first (ih fun d hd => h d (by simp [hd]))

@[simp] theorem parses_star_lit {c : Char} :
    Parses (.star (.lit c)) i w t g ↔ (∀ d ∈ w, d = c) ∧ g = [] := by
  simp only [Regex.lit, parses_star_set, beq_iff_eq]

theorem parses_opt : Parses (.opt a) i w t g ↔ Parses a i w t g ∨ (w = [] ∧ g = []) := by
  rw [Regex.opt, parses_alt, parses_eps]

@[simp] theorem parses_plus_set {p : Char → Bool} :
    Parses (.plus (.set p)) i w t g ↔ w ≠ [] ∧ (∀ c ∈ w, p c = true) ∧ g = [] := by
  rw [Regex.plus, parses_seq]
  constructor
  · rintro ⟨u, v, ga, gb, rfl, rfl, left, right⟩
    obtain ⟨c, rfl, hc, rfl⟩ := parses_set.1 left
    obtain ⟨rest, rfl⟩ := parses_star_set.1 right
    refine ⟨by simp, ?_, rfl⟩
    intro d hd
    rcases List.mem_cons.1 hd with rfl | hd
    · exact hc
    · exact rest d hd
  · rintro ⟨ne, h, rfl⟩
    cases w with
    | nil => exact absurd rfl ne
    | cons c w =>
      exact ⟨[c], w, [], [], rfl, rfl, parses_set.2 ⟨c, rfl, h c (by simp), rfl⟩,
        parses_star_set.2 ⟨fun d hd => h d (by simp [hd]), rfl⟩⟩

@[simp] theorem parses_plus_lit {c : Char} :
    Parses (.plus (.lit c)) i w t g ↔ w ≠ [] ∧ (∀ d ∈ w, d = c) ∧ g = [] := by
  simp only [Regex.lit, parses_plus_set, beq_iff_eq]

theorem parses_word {s : Str} : Parses (.word s) i w t g ↔ w = s ∧ g = [] := by
  induction s generalizing i w g with
  | nil => exact parses_eps
  | cons c s ih =>
    cases s with
    | nil => exact parses_lit
    | cons d s =>
      rw [Regex.word.eq_3 _ _ (by simp), parses_seq]
      constructor
      · rintro ⟨u, v, ga, gb, rfl, rfl, left, right⟩
        obtain ⟨rfl, rfl⟩ := parses_lit.1 left
        obtain ⟨rfl, rfl⟩ := ih.1 right
        exact ⟨rfl, rfl⟩
      · rintro ⟨rfl, rfl⟩
        exact ⟨[c], d :: s, [], [], rfl, rfl, parses_lit.2 ⟨rfl, rfl⟩, ih.2 ⟨rfl, rfl⟩⟩

theorem parses_words {l : List Str} : Parses (.words l) i w t g ↔ w ∈ l ∧ g = [] := by
  induction l with
  | nil => simp [Regex.words]
  | cons s l ih =>
    cases l with
    | nil => simpa [Regex.words] using parses_word
    | cons s' l =>
      rw [Regex.words.eq_3 _ _ (by simp), parses_alt, parses_word, ih]
      simp only [List.mem_cons]
      tauto

/-! ### Words without their groups -/

/-- Does some parse exist? -/
def Matches (r : Regex) (i : Nat) (w t : Str) : Prop := ∃ g, Parses r i w t g

theorem matches_seq : Matches (.seq a b) i w t ↔
    ∃ u v, w = u ++ v ∧ Matches a i u (v ++ t) ∧ Matches b (i + u.length) v t := by
  constructor
  · rintro ⟨g, h⟩
    obtain ⟨u, v, _, _, e, -, left, right⟩ := parses_seq.1 h
    exact ⟨u, v, e, ⟨_, left⟩, ⟨_, right⟩⟩
  · rintro ⟨u, v, rfl, ⟨_, left⟩, ⟨_, right⟩⟩
    exact ⟨_, .seq left right⟩

theorem matches_alt : Matches (.alt a b) i w t ↔ Matches a i w t ∨ Matches b i w t := by
  simp only [Matches, parses_alt, exists_or]

theorem matches_group : Matches (.group n a) i w t ↔ Matches a i w t := by
  constructor
  · rintro ⟨g, h⟩
    obtain ⟨ga, -, h⟩ := parses_group.1 h
    exact ⟨ga, h⟩
  · rintro ⟨g, h⟩
    exact ⟨_, .group h⟩

theorem matches_opt : Matches (.opt a) i w t ↔ Matches a i w t ∨ w = [] := by
  simp [Matches, parses_opt, exists_or]

theorem matches_lit {c : Char} : Matches (.lit c) i w t ↔ w = [c] := by simp [Matches]

theorem matches_star_set {p : Char → Bool} : Matches (.star (.set p)) i w t ↔ ∀ c ∈ w, p c = true := by
  simp [Matches]

theorem matches_star_lit {c : Char} : Matches (.star (.lit c)) i w t ↔ ∀ d ∈ w, d = c := by
  simp [Matches]

theorem matches_plus_set {p : Char → Bool} :
    Matches (.plus (.set p)) i w t ↔ w ≠ [] ∧ ∀ c ∈ w, p c = true := by
  simp [Matches]

theorem matches_plus_lit {c : Char} : Matches (.plus (.lit c)) i w t ↔ w ≠ [] ∧ ∀ d ∈ w, d = c := by
  simp [Matches]

theorem matches_words {l : List Str} : Matches (.words l) i w t ↔ w ∈ l := by
  simp [Matches, parses_words]

end Operators

end Posix
