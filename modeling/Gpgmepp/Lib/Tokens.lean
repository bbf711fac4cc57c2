import Mathlib.Data.List.Basic
import Mathlib.Tactic.Common

/-!
# Tokens between separators

A compressing splitter cuts a list at its separators and takes a run of adjacent ones for a
single separator.  It still has a token before the first and one behind the last, if empty ones.
So a list of words of which each is terminated, and not separated from the next, has one token
more than words.

## Main definitions

* `CompressingSplit` — the splitters, by their laws; `CompressingSplit.documented` is one.
* `terminated` — words that are each followed by the same separator.
* `split_terminated` — the tokens of terminated words.
-/

namespace Tokens

/-- A splitter that takes adjacent separators together. -/
class CompressingSplit (α : Type*) where
  split : (α → Bool) → List α → List (List α)
  /-- Without a separator there is one token. -/
  split_token : ∀ {p : α → Bool} {t : List α}, (∀ a ∈ t, p a = false) → split p t = [t]
  /-- A token ends at a run of separators, and behind the run the next one begins. -/
  split_run : ∀ {p : α → Bool} {t run rest : List α}, (∀ a ∈ t, p a = false) → run ≠ [] →
    (∀ a ∈ run, p a = true) → (∀ a ∈ rest.head?, p a = false) →
      split p (t ++ (run ++ rest)) = t :: split p rest

variable {α : Type*}

/-- A splitter that does so, to evaluate instances with. -/
def splitCompress (p : α → Bool) : List α → List (List α)
  | [] => [[]]
  | a :: s =>
      if p a then
        if s.head?.any p then splitCompress p s else [] :: splitCompress p s
      else (splitCompress p s).modifyHead (a :: ·)

theorem splitCompress_token {p : α → Bool} :
    ∀ {t : List α}, (∀ a ∈ t, p a = false) → splitCompress p t = [t]
  | [], _ => rfl
  | a :: t, h => by
      have ha := h a List.mem_cons_self
      have ht := splitCompress_token fun b hb => h b (List.mem_cons_of_mem a hb)
      simp [splitCompress, ha, ht]

theorem splitCompress_separators {p : α → Bool} {rest : List α}
    (hrest : ∀ a ∈ rest.head?, p a = false) :
    ∀ {run : List α}, run ≠ [] → (∀ a ∈ run, p a = true) →
      splitCompress p (run ++ rest) = [] :: splitCompress p rest
  | [a], _, h => by
      have ha := h a List.mem_cons_self
      have hnone : rest.head?.any p = false := by
        cases hhead : rest.head? with
        | none => rfl
        | some b => simpa using hrest b (by simp [hhead])
      simp [splitCompress, ha, hnone]
  | a :: b :: run, _, h => by
      have ha := h a List.mem_cons_self
      have hb := h b (by simp)
      have hrun := splitCompress_separators hrest (List.cons_ne_nil b run)
        fun c hc => h c (List.mem_cons_of_mem a hc)
      rw [List.cons_append] at hrun
      simp [splitCompress, ha, hb] at hrun ⊢
      exact hrun

/-- The splitter with its laws. -/
abbrev CompressingSplit.documented : CompressingSplit α where
  split := splitCompress
  split_token := splitCompress_token
  split_run := by
    intro p t run rest ht hne hrun hrest
    induction t with
    | nil => exact splitCompress_separators hrest hne hrun
    | cons a t ih =>
        have ha := ht a List.mem_cons_self
        have hsplit := ih fun b hb => ht b (List.mem_cons_of_mem a hb)
        simp [splitCompress, ha, hsplit]

open CompressingSplit

/-- Words, each followed by `c`. -/
def terminated (c : α) (words : List (List α)) : List α := words.flatMap (· ++ [c])

/-- **Terminated words are split into themselves and an empty token**, behind the last
terminator. -/
theorem split_terminated [CompressingSplit α] {p : α → Bool} {c : α} (hc : p c = true)
    {words : List (List α)} (hwords : ∀ w ∈ words, w ≠ [] ∧ ∀ a ∈ w, p a = false) :
    split p (terminated c words) = words ++ [[]] := by
  induction words with
  | nil => exact split_token (t := []) (by simp)
  | cons w words ih =>
      obtain ⟨-, hw⟩ := hwords w List.mem_cons_self
      have hrest := fun v hv => hwords v (List.mem_cons_of_mem w hv)
      -- the next word is not empty, so that no separator follows the terminator
      have hhead : ∀ a ∈ (terminated c words).head?, p a = false := by
        rcases words with _ | ⟨_ | ⟨b, v⟩, words⟩
        · simp [terminated]
        · exact absurd rfl (hrest [] List.mem_cons_self).1
        · have hb := (hrest (b :: v) List.mem_cons_self).2 b List.mem_cons_self
          simpa [terminated] using hb
      have hcons : terminated c (w :: words) = w ++ ([c] ++ terminated c words) := by
        rw [terminated, List.flatMap_cons, List.append_assoc]
        rfl
      have hrun : ∀ a ∈ [c], p a = true := by simpa using hc
      rw [hcons, split_run hw (List.cons_ne_nil c []) hrun hhead, ih hrest, List.cons_append]

end Tokens
