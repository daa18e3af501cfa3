import Mathlib.Data.List.Infix
import ProofPuzzles.Proofs.Formula.Spelling

/-! # Texts without other spellings

A replacement only puts in signs, and signs stand in no spelling. So a spelling that occurs
afterwards lies between the signs that were put in, and was there before. What has been replaced
once does not come back, whatever is replaced later.
-/

namespace ProofPuzzles.Spelling

section Replace

variable {spelling part cs : List Char} {sign c : Char} {skip : Nat}

/-- Up to the first sign that is put in, nothing changes. -/
theorem prefix_of_prefix_replace (old : sign ∉ part) (starts : part <+: replace spelling sign cs) :
    part <+: cs := by
  induction cs generalizing part with
  | nil => exact starts
  | cons c cs ih =>
      cases part with
      | nil => exact List.nil_prefix
      | cons d part =>
          rw [List.mem_cons, not_or] at old
          rw [replace, replaceAfter] at starts
          split at starts
          · exact absurd (List.cons_prefix_cons.mp starts).1.symm old.1
          · obtain ⟨rfl, later⟩ := List.cons_prefix_cons.mp starts
            exact List.cons_prefix_cons.mpr ⟨rfl, ih old.2 later⟩

/-- What occurs in the new text starts at its front or occurs further behind. -/
theorem prefix_or_infix_replaceAfter (occurs : part <:+: replaceAfter spelling sign skip (c :: cs)) :
    part <+: replace spelling sign (c :: cs) ∨
      ∃ rest, part <:+: replaceAfter spelling sign rest cs := by
  cases skip with
  | succ skip => exact .inr ⟨skip, occurs⟩
  | zero =>
      obtain ⟨d, rest, step⟩ :
          ∃ d rest, replace spelling sign (c :: cs) = d :: replaceAfter spelling sign rest cs := by
        rw [replace, replaceAfter]
        split <;> exact ⟨_, _, rfl⟩
      rw [← replace, step] at occurs
      rw [step]
      exact (List.infix_cons_iff.mp occurs).imp_right fun later => ⟨rest, later⟩

theorem infix_of_infix_replaceAfter (old : sign ∉ part)
    (occurs : part <:+: replaceAfter spelling sign skip cs) : part <:+: cs := by
  induction cs generalizing skip with
  | nil => exact occurs
  | cons c cs ih =>
      rcases prefix_or_infix_replaceAfter occurs with starts | ⟨rest, later⟩
      · exact (prefix_of_prefix_replace old starts).isInfix
      · exact List.infix_cons (ih later)

/-- Whatever occurs after a replacement without holding the sign was there before. -/
theorem infix_of_infix_replace (old : sign ∉ part) (occurs : part <:+: replace spelling sign cs) :
    part <:+: cs :=
  infix_of_infix_replaceAfter old occurs

theorem not_prefix_replace (filled : spelling ≠ []) (new : sign ∉ spelling) :
    ¬ spelling <+: replace spelling sign cs := by
  intro starts
  -- it would have started the old text too, and then the new one starts with the sign
  have before := prefix_of_prefix_replace new starts
  obtain ⟨d, ds, rfl⟩ := List.exists_cons_of_ne_nil filled
  cases cs with
  | nil => cases List.prefix_nil.mp before
  | cons c cs =>
      rw [replace, replaceAfter, if_pos (List.isPrefixOf_iff_prefix.mpr before)] at starts
      exact new ((List.cons_prefix_cons.mp starts).1 ▸ List.mem_cons_self)

theorem not_infix_replaceAfter (filled : spelling ≠ []) (new : sign ∉ spelling) :
    ¬ spelling <:+: replaceAfter spelling sign skip cs := by
  induction cs generalizing skip with
  | nil => exact fun occurs => filled (List.eq_nil_of_infix_nil occurs)
  | cons c cs ih =>
      intro occurs
      rcases prefix_or_infix_replaceAfter occurs with starts | ⟨rest, later⟩
      · exact not_prefix_replace filled new starts
      · exact ih later

/-- No occurrence is overlooked, and none comes about. -/
theorem not_infix_replace (filled : spelling ≠ []) (new : sign ∉ spelling) :
    ¬ spelling <:+: replace spelling sign cs :=
  not_infix_replaceAfter filled new

theorem replace_of_not_infix (absent : ¬ spelling <:+: cs) : replace spelling sign cs = cs := by
  induction cs with
  | nil => rfl
  | cons c cs ih =>
      rw [List.infix_cons_iff, not_or] at absent
      rw [replace, replaceAfter, if_neg (mt List.isPrefixOf_iff_prefix.mp absent.1)]
      exact congrArg (c :: ·) (ih absent.2)

end Replace

/-- Replaces the given spellings one after the other. -/
def replaceEach (ways : List (List Char × Tile)) (cs : List Char) : List Char :=
  ways.foldl (fun cs way => replace way.1 way.2.char cs) cs

section Each

variable {ways : List (List Char × Tile)} {e : List Char × Tile} {part cs : List Char}

theorem replaceEach_cons (e : List Char × Tile) (ways : List (List Char × Tile)) (cs : List Char) :
    replaceEach (e :: ways) cs = replaceEach ways (replace e.1 e.2.char cs) := rfl

theorem infix_of_infix_replaceEach (old : ∀ e ∈ ways, e.2.char ∉ part)
    (occurs : part <:+: replaceEach ways cs) : part <:+: cs := by
  induction ways generalizing cs with
  | nil => exact occurs
  | cons e ways ih =>
      rw [List.forall_mem_cons] at old
      rw [replaceEach_cons] at occurs
      exact infix_of_infix_replace old.1 (ih old.2 occurs)

/-- A spelling that has been replaced stays away. -/
theorem not_infix_replaceEach (within : ways ⊆ table) (listed : e ∈ ways) :
    ¬ e.1 <:+: replaceEach ways cs := by
  have known : e ∈ table := within listed
  induction ways generalizing cs with
  | nil => cases listed
  | cons way ways ih =>
      rw [replaceEach_cons]
      rcases List.mem_cons.mp listed with rfl | later
      · intro occurs
        have before := infix_of_infix_replaceEach (fun way _ => char_notMem known way.2) occurs
        exact not_infix_replace (table_filled e known) (char_notMem known e.2) before
      · exact ih (List.subset_of_cons_subset within) later

theorem replaceEach_of_absent (absent : ∀ e ∈ ways, ¬ e.1 <:+: cs) : replaceEach ways cs = cs := by
  induction ways with
  | nil => rfl
  | cons e ways ih =>
      rw [List.forall_mem_cons] at absent
      rw [replaceEach_cons, replace_of_not_infix absent.1]
      exact ih absent.2

end Each

theorem not_infix_normalize (cs : List Char) : ∀ e ∈ table, ¬ e.1 <:+: normalize cs :=
  fun _ listed => not_infix_replaceEach (List.Subset.refl _) listed

theorem normalize_eq_self_iff {cs : List Char} :
    normalize cs = cs ↔ ∀ e ∈ table, ¬ e.1 <:+: cs :=
  ⟨fun same => same ▸ not_infix_normalize cs, replaceEach_of_absent⟩

/-- After one pass none of the other spellings is left, and a second pass finds nothing to do: the
texts without other spellings are the texts that stay as they are. -/
theorem normalize_settles (cs : List Char) :
    (∀ e ∈ table, ¬ e.1 <:+: normalize cs) ∧ normalize (normalize cs) = normalize cs ∧
      (normalize cs = cs ↔ ∀ e ∈ table, ¬ e.1 <:+: cs) :=
  ⟨not_infix_normalize cs, normalize_eq_self_iff.mpr (not_infix_normalize cs),
    normalize_eq_self_iff⟩

/-- What is left around a sign looks like the spelling that it stood in. -/
example : normalize ['<', '-', '<', '-', '>', '>'] = ['<', '-', '↔', '>'] := by decide

end ProofPuzzles.Spelling
