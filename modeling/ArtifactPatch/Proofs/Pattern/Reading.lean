/-
  ArtifactPatch.Proofs.Pattern.Reading
  ────────────────────────────────────
  **WHAT A PATTERN READS OFF A TEXT.**

  Reading is filling in backwards: a match is the pattern filled in with the
  tokens that it binds (`readSegments_sound`), a filled pattern is read where
  its tokens end (`readSegments_complete`), and what is read depends on what
  follows only where a token could go on there (`readSegments_congr`).
-/
import ArtifactPatch.Proofs.Pattern.Filling
import ArtifactPatch.Proofs.Pattern.Tiling

namespace ArtifactPatch

/-! ## §1. Where a token ends. -/

/-- A token at the end of `u` does not go on in `rest`. -/
def Seam (u rest : Text) : Prop :=
  endsWithIdentChar u = true → beginsWithIdentChar rest = false

theorem Seam.tail {a u rest : Text} (h : Seam (a ++ u) rest) : Seam u rest := by
  intro hends
  have hne : u ≠ [] := by
    intro hnil
    subst hnil
    cases hends
  exact h (by rw [endsWithIdentChar_append a hne]; exact hends)

theorem seam_of_closed {u : Text} (h : endsWithIdentChar u = false) (rest : Text) : Seam u rest := by
  intro hends
  rw [h] at hends
  cases hends

/-! ## §2. Tokens. -/

/-- Where characters of a kind are dropped, none is in front. -/
theorem any_head?_dropWhile (kind : Char → Bool) (t : Text) :
    (t.dropWhile kind).head?.any kind = false := by
  induction t with
  | nil => rfl
  | cons c t ih =>
      rw [List.dropWhile_cons]
      split
      next => exact ih
      next h => exact Bool.eq_false_iff.2 h

theorem beginsWithIdentChar_dropWhile (t : Text) :
    beginsWithIdentChar (t.dropWhile isIdentChar) = false :=
  any_head?_dropWhile isIdentChar t

/-- Characters of a kind are taken up to the first other character. -/
theorem takeWhile_append_of_seam {kind : Char → Bool} {a rest : Text}
    (ha : ∀ d ∈ a, kind d = true) (hrest : rest.head?.any kind = false) :
    (a ++ rest).takeWhile kind = a ∧ (a ++ rest).dropWhile kind = rest := by
  have hstop : rest.takeWhile kind = [] ∧ rest.dropWhile kind = rest := by
    cases rest with
    | nil => exact ⟨rfl, rfl⟩
    | cons c rest =>
        have hc : kind c = false := hrest
        rw [List.takeWhile_cons, List.dropWhile_cons, hc]
        exact ⟨rfl, rfl⟩
  rw [List.takeWhile_append_of_pos ha, List.dropWhile_append_of_pos ha, hstop.1, hstop.2,
    List.append_nil]
  exact ⟨rfl, rfl⟩

namespace Pattern

theorem token?_cons (c : Char) (cs : Text) : token? (c :: cs) =
    if isIdentStart c then some (c :: cs.takeWhile isIdentChar, cs.dropWhile isIdentChar)
    else none := rfl

/-- **What a token is**: the longest stretch of identifier characters. -/
theorem token?_eq_some_iff {t tok rest : Text} :
    token? t = some (tok, rest)
      ↔ t = tok ++ rest ∧ IsToken tok ∧ beginsWithIdentChar rest = false := by
  cases t with
  | nil =>
      constructor
      · intro h
        cases h
      · rintro ⟨h, htok, -⟩
        exact absurd (List.append_eq_nil_iff.1 h.symm).1 htok.ne_nil
  | cons c cs =>
      rw [token?_cons]
      constructor
      · intro h
        split at h
        next hstart =>
          obtain ⟨rfl, rfl⟩ := Prod.mk.inj (Option.some.inj h)
          refine ⟨?_, ⟨hstart, ?_⟩, beginsWithIdentChar_dropWhile cs⟩
          · rw [List.cons_append, List.takeWhile_append_dropWhile]
          · exact fun d hd => List.all_eq_true.1 List.all_takeWhile d hd
        next => cases h
      · rintro ⟨h, htok, hrest⟩
        cases tok with
        | nil => exact htok.elim
        | cons d ds =>
            obtain ⟨rfl, htail⟩ := List.cons.inj h
            obtain ⟨htake, hdrop⟩ := takeWhile_append_of_seam htok.2 hrest
            rw [if_pos htok.1, show cs = ds ++ rest from htail, htake, hdrop]

end Pattern

/-- Tokens in front of other characters are told apart. -/
theorem IsToken.append_inj {a b s t : Text} (ha : IsToken a) (hb : IsToken b)
    (hs : beginsWithIdentChar s = false) (ht : beginsWithIdentChar t = false)
    (h : a ++ s = b ++ t) : a = b ∧ s = t := by
  have hread := Pattern.token?_eq_some_iff.2 ⟨rfl, ha, hs⟩
  rw [h, Pattern.token?_eq_some_iff.2 ⟨rfl, hb, ht⟩] at hread
  exact (Prod.mk.inj (Option.some.inj hread)).imp Eq.symm Eq.symm

/-! ## §3. Tokens bound on the way. -/

namespace Captures

/-- What is bound here is bound to the same token there. -/
def Extends (captures captures' : Captures) : Prop :=
  ∀ name tok, captures.lookup name = some tok → captures'.lookup name = some tok

theorem allTokens_nil : AllTokens [] := by
  intro name tok h
  cases h

theorem extends_nil (captures : Captures) : Extends [] captures := by
  intro name tok h
  cases h

theorem lookup_snoc {captures : Captures} {name : String} (h : captures.lookup name = none)
    (tok : Text) (other : String) : List.lookup other (captures ++ [(name, tok)])
      = if other = name then some tok else captures.lookup other := by
  rw [List.lookup_append]
  by_cases hname : other = name
  · subst hname
    rw [h, if_pos rfl, List.lookup_cons_self]
    rfl
  · rw [if_neg hname, List.lookup_cons, beq_false_of_ne hname]
    exact Option.or_none

end Captures

/-- What is bound after a token was read for a placeholder. -/
def Captures.After (captures : Captures) (name : String) (tok : Text) (captures₁ : Captures) : Prop :=
  captures.lookup name = some tok ∧ captures₁ = captures ∨
    captures.lookup name = none ∧ captures₁ = captures ++ [(name, tok)]

namespace Captures.After

variable {captures captures₁ : Captures} {name : String} {tok : Text}

theorem lookup (h : captures.After name tok captures₁) : captures₁.lookup name = some tok := by
  rcases h with ⟨hbound, rfl⟩ | ⟨hfree, rfl⟩
  · exact hbound
  · rw [lookup_snoc hfree, if_pos rfl]

theorem keeps (h : captures.After name tok captures₁) : captures.Extends captures₁ := by
  rcases h with ⟨-, rfl⟩ | ⟨hfree, rfl⟩
  · exact fun _ _ h => h
  · intro other tok' hother
    have hne : other ≠ name := by
      intro heq
      rw [heq, hfree] at hother
      cases hother
    rw [lookup_snoc hfree, if_neg hne]
    exact hother

theorem allTokens (h : captures.After name tok captures₁) (htok : IsToken tok)
    (hall : captures.AllTokens) : captures₁.AllTokens := by
  rcases h with ⟨-, rfl⟩ | ⟨hfree, rfl⟩
  · exact hall
  · intro other tok' hother
    rw [lookup_snoc hfree] at hother
    split at hother
    next =>
      obtain rfl := Option.some.inj hother
      exact htok
    next => exact hall other tok' hother

end Captures.After

/-- A token that is bound there may be read here. -/
theorem Captures.exists_after {captures captures' : Captures} {name : String} {tok : Text}
    (hextends : captures.Extends captures') (hbound : captures'.lookup name = some tok) :
    ∃ captures₁, captures.After name tok captures₁ ∧ captures₁.Extends captures' := by
  cases hlookup : captures.lookup name with
  | some tok' =>
      have hsame := hextends name tok' hlookup
      rw [hbound] at hsame
      obtain rfl := Option.some.inj hsame
      exact ⟨captures, .inl ⟨hlookup, rfl⟩, hextends⟩
  | none =>
      refine ⟨_, .inr ⟨hlookup, rfl⟩, ?_⟩
      intro other tok' hother
      rw [lookup_snoc hlookup] at hother
      split at hother
      next heq =>
        obtain rfl := Option.some.inj hother
        rw [heq]
        exact hbound
      next => exact hextends other tok' hother

/-! ## §4. Reading segments. -/

namespace Pattern

variable {segments : List Segment} {captures captures' : Captures}

/-- Reading a literal. -/
theorem readSegments_literal_iff {lit t : Text} {r : Captures × Text} :
    readSegments (.literal lit :: segments) captures t = some r ↔
      ∃ t', t = lit ++ t' ∧ readSegments segments captures t' = some r := by
  show (Text.after? lit t).bind (readSegments segments captures) = some r ↔ _
  rw [Option.bind_eq_some_iff]
  constructor
  · rintro ⟨t', hafter, h⟩
    exact ⟨t', Text.after?_eq_some_iff.1 hafter, h⟩
  · rintro ⟨t', ht, h⟩
    exact ⟨t', Text.after?_eq_some_iff.2 ht, h⟩

/-- Reading a placeholder. -/
theorem readSegments_placeholder_iff {name : String} {t : Text} {r : Captures × Text} :
    readSegments (.placeholder name :: segments) captures t = some r ↔
      ∃ tok t' captures₁, token? t = some (tok, t') ∧ captures.After name tok captures₁ ∧
        readSegments segments captures₁ t' = some r := by
  rw [readSegments, Option.bind_eq_some_iff]
  constructor
  · rintro ⟨⟨tok, t'⟩, htoken, h⟩
    dsimp only at h
    split at h
    next bound hbound =>
      split at h
      next heq => exact ⟨tok, t', captures, htoken, .inl ⟨heq ▸ hbound, rfl⟩, h⟩
      next => cases h
    next hfree => exact ⟨tok, t', _, htoken, .inr ⟨hfree, rfl⟩, h⟩
  · rintro ⟨tok, t', captures₁, htoken, hafter, h⟩
    refine ⟨(tok, t'), htoken, ?_⟩
    dsimp only
    rcases hafter with ⟨hbound, rfl⟩ | ⟨hfree, rfl⟩
    · rw [hbound]
      exact (if_pos rfl).trans h
    · rw [hfree]
      exact h

/-- **Reading is filling in backwards.**  What was bound stays bound, what is
bound anew is a token, and the segments filled in stand at the front. -/
theorem readSegments_sound {t rest : Text}
    (h : readSegments segments captures t = some (captures', rest)) :
    captures.Extends captures' ∧ (captures.AllTokens → captures'.AllTokens) ∧
      t = segments.flatMap (Segment.fill captures') ++ rest := by
  induction segments generalizing captures t with
  | nil =>
      obtain ⟨rfl, rfl⟩ := Prod.mk.inj (Option.some.inj h)
      exact ⟨fun _ _ h => h, id, rfl⟩
  | cons s segments ih =>
      cases s with
      | literal lit =>
          obtain ⟨t', rfl, hrest⟩ := readSegments_literal_iff.1 h
          obtain ⟨hextends, htokens, rfl⟩ := ih hrest
          refine ⟨hextends, htokens, ?_⟩
          rw [List.flatMap_cons, List.append_assoc]
          rfl
      | placeholder name =>
          obtain ⟨tok, t', captures₁, htoken, hafter, hrest⟩ := readSegments_placeholder_iff.1 h
          obtain ⟨rfl, htok, -⟩ := token?_eq_some_iff.1 htoken
          obtain ⟨hextends, htokens, rfl⟩ := ih hrest
          refine ⟨fun other tok' hother => hextends _ _ (hafter.keeps _ _ hother),
            fun hall => htokens (hafter.allTokens htok hall), ?_⟩
          rw [List.flatMap_cons, Segment.fill_placeholder (hextends _ _ hafter.lookup),
            List.append_assoc]

/-- Nothing is bound but placeholders. -/
theorem isSome_or_mem_of_readSegments {t rest : Text}
    (h : readSegments segments captures t = some (captures', rest)) {name : String}
    (hname : (captures'.lookup name).isSome) :
    (captures.lookup name).isSome ∨ .placeholder name ∈ segments := by
  induction segments generalizing captures t with
  | nil =>
      obtain ⟨rfl, -⟩ := Prod.mk.inj (Option.some.inj h)
      exact .inl hname
  | cons s segments ih =>
      cases s with
      | literal lit =>
          obtain ⟨t', -, hrest⟩ := readSegments_literal_iff.1 h
          exact (ih hrest).imp_right (List.mem_cons_of_mem _)
      | placeholder other =>
          obtain ⟨tok, t', captures₁, -, hafter, hrest⟩ := readSegments_placeholder_iff.1 h
          rcases ih hrest with hbound | hmem
          · rcases hafter with ⟨-, rfl⟩ | ⟨hfree, rfl⟩
            · exact .inl hbound
            · rw [Captures.lookup_snoc hfree] at hbound
              split at hbound
              next heq => exact .inr (heq ▸ List.mem_cons_self)
              next => exact .inl hbound
          · exact .inr (List.mem_cons_of_mem _ hmem)

/-- What is left of a text is its end. -/
theorem exists_append_of_readSegments {t rest : Text}
    (h : readSegments segments captures t = some (captures', rest)) : ∃ u, t = u ++ rest :=
  ⟨_, (readSegments_sound h).2.2⟩

/-- **Reading looks no further than the end of a token.** -/
theorem readSegments_congr {u rest rest' : Text}
    (h : readSegments segments captures (u ++ rest) = some (captures', rest))
    (hseam : Seam u rest') :
    readSegments segments captures (u ++ rest') = some (captures', rest') := by
  induction segments generalizing captures u with
  | nil =>
      obtain ⟨rfl, hsame⟩ := Prod.mk.inj (Option.some.inj h)
      obtain rfl : u = [] := List.append_left_eq_self.1 hsame
      rfl
  | cons s segments ih =>
      cases s with
      | literal lit =>
          obtain ⟨t', hsplit, hrest⟩ := readSegments_literal_iff.1 h
          obtain ⟨u', rfl⟩ := exists_append_of_readSegments hrest
          rw [← List.append_assoc] at hsplit
          obtain rfl := List.append_cancel_right hsplit
          exact readSegments_literal_iff.2 ⟨u' ++ rest', List.append_assoc .., ih hrest hseam.tail⟩
      | placeholder name =>
          obtain ⟨tok, t', captures₁, htoken, hafter, hrest⟩ := readSegments_placeholder_iff.1 h
          obtain ⟨hsplit, htok, hstop⟩ := token?_eq_some_iff.1 htoken
          obtain ⟨u', rfl⟩ := exists_append_of_readSegments hrest
          rw [← List.append_assoc] at hsplit
          obtain rfl := List.append_cancel_right hsplit
          -- the token ends where it did, before what follows it or at the seam
          have hstop' : beginsWithIdentChar (u' ++ rest') = false := by
            cases u' with
            | nil =>
                rw [List.append_nil] at hseam
                exact hseam htok.endsWithIdentChar
            | cons c u' => exact hstop
          exact readSegments_placeholder_iff.2 ⟨tok, u' ++ rest', captures₁,
            token?_eq_some_iff.2 ⟨List.append_assoc .., htok, hstop'⟩, hafter, ih hrest hseam.tail⟩

/-- Boundaries stay clear behind the first segment. -/
theorem boundaryError?_tail {s : Segment} (h : Segment.boundaryError? (s :: segments) = none) :
    Segment.boundaryError? segments = none := by
  unfold Segment.boundaryError? at h
  split at h
  next => cases h
  next heq =>
    obtain ⟨-, rfl⟩ := List.cons.inj heq
    split at h
    next => cases h
    next => exact h
  next heq =>
    obtain ⟨-, rfl⟩ := List.cons.inj heq
    split at h
    next => cases h
    next => exact h
  next heq =>
    obtain ⟨-, rfl⟩ := List.cons.inj heq
    exact h
  next heq => cases heq

/-- Behind a placeholder there is nothing, or a literal that does not go on with
its token. -/
theorem behind_placeholder {name : String}
    (h : Segment.boundaryError? (.placeholder name :: segments) = none) :
    segments = [] ∨ ∃ lit rest, segments = .literal lit :: rest ∧ beginsWithIdentChar lit = false := by
  cases segments with
  | nil => exact .inl rfl
  | cons s rest =>
      cases s with
      | literal lit =>
          refine .inr ⟨lit, rest, rfl, ?_⟩
          unfold Segment.boundaryError? at h
          split at h
          next => cases h
          next hclear => exact Bool.eq_false_iff.2 hclear
      | placeholder other => cases h

/-- **A filled pattern is read.**  Its tokens end where its literals begin, and
the last one where nothing goes on with it; so they are read as they were bound. -/
theorem readSegments_complete {rest : Text} (hclear : Segment.boundaryError? segments = none)
    (hsolid : .literal [] ∉ segments) (hbinds : captures'.Binds segments)
    (hextends : captures.Extends captures')
    (hseam : Seam (segments.flatMap (Segment.fill captures')) rest) :
    ∃ captures₁, readSegments segments captures
        (segments.flatMap (Segment.fill captures') ++ rest) = some (captures₁, rest) ∧
      captures₁.Extends captures' := by
  induction segments generalizing captures with
  | nil => exact ⟨captures, rfl, hextends⟩
  | cons s segments ih =>
      have htail := boundaryError?_tail hclear
      have hsolid' : .literal [] ∉ segments := fun h => hsolid (List.mem_cons_of_mem _ h)
      have hbinds' : captures'.Binds segments := fun name h => hbinds name (List.mem_cons_of_mem _ h)
      rw [List.flatMap_cons] at hseam
      cases s with
      | literal lit =>
          obtain ⟨captures₁, h, hsame⟩ := ih htail hsolid' hbinds' hextends hseam.tail
          refine ⟨captures₁, readSegments_literal_iff.2 ⟨_, ?_, h⟩, hsame⟩
          rw [List.flatMap_cons, List.append_assoc]
          rfl
      | placeholder name =>
          obtain ⟨tok, hbound, htok⟩ := hbinds name List.mem_cons_self
          obtain ⟨captures₁, hafter, hextends₁⟩ := Captures.exists_after hextends hbound
          obtain ⟨captures₂, h, hsame⟩ := ih htail hsolid' hbinds' hextends₁ hseam.tail
          have hstop : beginsWithIdentChar (segments.flatMap (Segment.fill captures') ++ rest)
              = false := by
            rcases behind_placeholder hclear with rfl | ⟨lit, others, rfl, hlit⟩
            · rw [Segment.fill_placeholder hbound, List.flatMap_nil, List.append_nil] at hseam
              exact hseam htok.endsWithIdentChar
            · have hne : lit ≠ [] := fun hnil => hsolid' (hnil ▸ List.mem_cons_self)
              rw [List.flatMap_cons, List.append_assoc]
              exact (beginsWithIdentChar_append hne _).trans hlit
          refine ⟨captures₂,
            readSegments_placeholder_iff.2 ⟨tok, _, captures₁, ?_, hafter, h⟩, hsame⟩
          refine token?_eq_some_iff.2 ⟨?_, htok, hstop⟩
          rw [List.flatMap_cons, Segment.fill_placeholder hbound, List.append_assoc]

end Pattern

end ArtifactPatch
