/-
  ArtifactPatch.Proofs.Pattern.Overlay
  ────────────────────────────────────
  **FILLED SEGMENTS THAT CANNOT BE LAID OVER EACH OTHER.**

  Whatever tokens are filled in, segments differ from the start on if they have
  the same literals up to a place where they have different ones (`differ`): up
  to there the tokens must be the same, too.  A keyword in front, with a mark
  behind it that stands nowhere else, allows no other place (`apart_fill`).
-/
import ArtifactPatch.Proofs.Pattern.Reading
import ArtifactPatch.Proofs.Text.Overlap

namespace ArtifactPatch

namespace Segment

variable {captures captures' : Captures}

/-! ## §1. From the start. -/

/-- Different literals come up behind the same literals and as many tokens. -/
def differ : List Segment → List Segment → Bool
  | .literal lit :: xs, .literal lit' :: ys =>
      if lit = lit' then differ xs ys else !decide (Text.Agree lit lit')
  | .placeholder _ :: .literal lit :: xs, .placeholder _ :: .literal lit' :: ys =>
      lit.head?.any (!isIdentChar ·) && lit'.head?.any (!isIdentChar ·)
        && differ (.literal lit :: xs) (.literal lit' :: ys)
  | _, _ => false

/-- A literal that begins with another character ends the token in front of it. -/
theorem beginsWithIdentChar_literal {lit : Text} (h : lit.head?.any (!isIdentChar ·) = true)
    (t : Text) : beginsWithIdentChar (lit ++ t) = false := by
  cases lit with
  | nil => cases h
  | cons c lit =>
      have hc : (!isIdentChar c) = true := h
      exact Bool.not_eq_true' _ ▸ hc

theorem flatMap_fill_placeholder {name : String} {tok : Text}
    (h : captures.lookup name = some tok) (segments : List Segment) :
    (Segment.placeholder name :: segments).flatMap (fill captures)
      = tok ++ segments.flatMap (fill captures) := by
  rw [List.flatMap_cons, fill_placeholder h]

/-- **No tokens make such segments agree.** -/
theorem append_ne_of_differ {xs ys : List Segment} (h : differ xs ys = true)
    (hxs : captures.Binds xs) (hys : captures'.Binds ys) (s t : Text) :
    xs.flatMap (fill captures) ++ s ≠ ys.flatMap (fill captures') ++ t := by
  fun_induction differ xs ys with
  | case1 lit xs ys ih =>
      rw [List.flatMap_cons, List.flatMap_cons, List.append_assoc, List.append_assoc]
      intro heq
      refine ih h (fun name hname => hxs name (List.mem_cons_of_mem _ hname))
        (fun name hname => hys name (List.mem_cons_of_mem _ hname)) ?_
      exact List.append_cancel_left heq
  | case2 lit xs lit' ys hne =>
      rw [Bool.not_eq_true', decide_eq_false_iff_not] at h
      rw [List.flatMap_cons, List.flatMap_cons, List.append_assoc, List.append_assoc]
      exact fun heq => h (Text.agree_of_append_eq heq)
  | case3 name lit xs name' lit' ys ih =>
      rw [Bool.and_eq_true, Bool.and_eq_true] at h
      obtain ⟨⟨hlit, hlit'⟩, h⟩ := h
      obtain ⟨tok, hbound, htok⟩ := hxs name List.mem_cons_self
      obtain ⟨tok', hbound', htok'⟩ := hys name' List.mem_cons_self
      rw [flatMap_fill_placeholder hbound, flatMap_fill_placeholder hbound', List.append_assoc,
        List.append_assoc]
      intro heq
      -- the tokens end where the literals begin, so they are the same
      have hstop := beginsWithIdentChar_literal hlit (xs.flatMap (fill captures) ++ s)
      have hstop' := beginsWithIdentChar_literal hlit' (ys.flatMap (fill captures') ++ t)
      rw [← List.append_assoc] at hstop hstop'
      exact ih h (fun other hother => hxs other (List.mem_cons_of_mem _ hother))
        (fun other hother => hys other (List.mem_cons_of_mem _ hother))
        (htok.append_inj htok' hstop hstop' heq).2
  | case4 => cases h

/-! ## §2. At any place. -/

/-- Segments behind a mark that is none of their characters; they end where no
identifier could go on. -/
structure Behind (mark : Char) (segments : List Segment) : Prop where
  ne_nil : segments ≠ []
  solid : .literal [] ∉ segments
  closed : endsWithIdent segments = false
  unmarked : literalCount (· == mark) segments = 0

variable {mark : Char} {segments : List Segment}

theorem Behind.not_mem (h : Behind mark segments) (hmark : isIdentChar mark = false)
    (hbinds : captures.Binds segments) : mark ∉ segments.flatMap (fill captures) := by
  rw [← List.count_eq_zero, count_fill hmark hbinds]
  exact h.unmarked

/-- What they end with is no character of a keyword. -/
theorem Behind.getLast?_not_mem (h : Behind mark segments) (hbinds : captures.Binds segments)
    {keyword : Text} (hkeyword : ∀ c ∈ keyword, isIdentChar c = true) {c : Char}
    (hlast : (mark :: segments.flatMap (fill captures)).getLast? = some c) : c ∉ keyword := by
  have hne := flatMap_fill_ne_nil h.ne_nil h.solid hbinds
  have hclosed := (endsWithIdentChar_fill h.ne_nil h.solid hbinds).trans h.closed
  have hends : endsWithIdentChar (mark :: segments.flatMap (fill captures)) = false :=
    (endsWithIdentChar_append [mark] hne).trans hclosed
  unfold endsWithIdentChar at hends
  rw [hlast] at hends
  intro hmem
  have hc : isIdentChar c = false := hends
  rw [hkeyword c hmem] at hc
  cases hc

/-- **Behind the same keyword and mark, segments that differ are apart.** -/
theorem apart_fill {keyword : Text} {xs ys : List Segment}
    (hkeyword : ∀ c ∈ keyword, isIdentChar c = true) (hmark : isIdentChar mark = false)
    (hxs : Behind mark xs) (hys : Behind mark ys) (hdiffer : differ xs ys = true)
    (hbinds : captures.Binds xs) (hbinds' : captures'.Binds ys) :
    Text.Apart (keyword ++ mark :: xs.flatMap (fill captures))
      (keyword ++ mark :: ys.flatMap (fill captures')) := by
  have hhead : mark ∉ keyword := by
    intro hmem
    rw [hkeyword mark hmem] at hmark
    cases hmark
  refine Text.apart_of_mark hhead (hxs.not_mem hmark hbinds) (hys.not_mem hmark hbinds')
    (fun _ hlast => hxs.getLast?_not_mem hbinds hkeyword hlast)
    (fun _ hlast => hys.getLast?_not_mem hbinds' hkeyword hlast) fun hagree => ?_
  obtain ⟨s, t, heq⟩ := hagree.exists_append_eq
  rw [List.append_assoc, List.append_assoc] at heq
  exact append_ne_of_differ hdiffer hbinds hbinds' s t
    (List.cons.inj (List.append_cancel_left heq)).2

end Segment

end ArtifactPatch
