/-
  ArtifactPatch.Proofs.Pattern.Filling
  ────────────────────────────────────
  **SEGMENTS WITH TOKENS IN THEM.**

  Filling in puts the captures in the place of the placeholders; rendering a
  template does no more (`Template.render_eq_fill`).  Where every placeholder
  is bound to a token, much of the filled text is known before the tokens are:
  what it ends with (`endsWithIdentChar_fill`), and how many characters of a
  kind it has that no token has (`countP_fill`).
-/
import ArtifactPatch.Template

namespace ArtifactPatch

/-! ## §1. Edges of texts. -/

theorem beginsWithIdentChar_append {a : Text} (h : a ≠ []) (b : Text) :
    beginsWithIdentChar (a ++ b) = beginsWithIdentChar a := by
  cases a with
  | nil => exact absurd rfl h
  | cons c a => rfl

theorem endsWithIdentChar_append (a : Text) {b : Text} (h : b ≠ []) :
    endsWithIdentChar (a ++ b) = endsWithIdentChar b := by
  unfold endsWithIdentChar
  rw [List.getLast?_append, List.getLast?_eq_some_getLast h]
  rfl

theorem endsWithIdentChar_of_forall_mem {t : Text} (hne : t ≠ [])
    (h : ∀ c ∈ t, isIdentChar c = true) : endsWithIdentChar t = true := by
  unfold endsWithIdentChar
  rw [List.getLast?_eq_some_getLast hne]
  exact h _ (List.getLast_mem hne)

/-! ## §2. Tokens. -/

/-- An identifier token. -/
def IsToken : Text → Prop
  | [] => False
  | c :: cs => isIdentStart c = true ∧ ∀ d ∈ cs, isIdentChar d = true

theorem isIdentChar_of_isIdentStart {c : Char} (h : isIdentStart c = true) : isIdentChar c = true := by
  unfold isIdentChar
  rw [h, Bool.true_or]

theorem IsToken.ne_nil {tok : Text} (h : IsToken tok) : tok ≠ [] := by
  intro hnil
  subst hnil
  exact h

theorem IsToken.isIdentChar {tok : Text} (h : IsToken tok) {d : Char} (hd : d ∈ tok) :
    isIdentChar d = true := by
  cases tok with
  | nil => cases hd
  | cons c cs =>
      rcases List.mem_cons.1 hd with rfl | hd
      · exact isIdentChar_of_isIdentStart h.1
      · exact h.2 d hd

theorem beginsWithIdentChar_of_isToken {tok : Text} (h : IsToken tok) :
    beginsWithIdentChar tok = true := by
  cases tok with
  | nil => exact h.elim
  | cons c cs => exact isIdentChar_of_isIdentStart h.1

theorem IsToken.endsWithIdentChar {tok : Text} (h : IsToken tok) : endsWithIdentChar tok = true :=
  endsWithIdentChar_of_forall_mem h.ne_nil fun _ hc => h.isIdentChar hc

/-! ## §3. Filling in. -/

theorem Segment.mem_insertName {name other : String} {names : List String} :
    other ∈ insertName name names ↔ other = name ∨ other ∈ names := by
  induction names with
  | nil => simp [insertName]
  | cons m rest ih =>
      unfold insertName
      split
      next heq =>
        subst heq
        simp
      next =>
        split
        next => simp
        next =>
          rw [List.mem_cons, ih, List.mem_cons]
          constructor
          · intro h
            rcases h with h | h | h
            · exact .inr (.inl h)
            · exact .inl h
            · exact .inr (.inr h)
          · intro h
            rcases h with h | h | h
            · exact .inr (.inl h)
            · exact .inl h
            · exact .inr (.inr h)

theorem Segment.mem_placeholders {name : String} {segments : List Segment} :
    name ∈ placeholders segments ↔ .placeholder name ∈ segments := by
  induction segments with
  | nil => simp [placeholders]
  | cons segment rest ih =>
      cases segment with
      | literal text =>
          show name ∈ placeholders rest ↔ _
          rw [ih, List.mem_cons]
          simp
      | placeholder other =>
          show name ∈ insertName other (placeholders rest) ↔ _
          rw [mem_insertName, ih, List.mem_cons, Segment.placeholder.injEq]

/-- Segments with the same names have the same placeholders. -/
theorem Segment.placeholder_mem_iff {segments segments' : List Segment}
    (h : placeholders segments = placeholders segments') {name : String} :
    .placeholder name ∈ segments ↔ .placeholder name ∈ segments' := by
  rw [← mem_placeholders, ← mem_placeholders, h]

/-- What a segment of a template becomes. -/
def Segment.fill (captures : Captures) : Segment → Text
  | .literal text => text
  | .placeholder name => (captures.lookup name).getD []

/-- A template with the captures in the place of the placeholders. -/
def Template.fill (t : Template) (captures : Captures) : Text :=
  t.segments.flatMap (Segment.fill captures)

/-- Rendering fills the template if every placeholder is bound. -/
theorem Template.render_eq_fill {t : Template} {captures : Captures}
    (h : ∀ name, .placeholder name ∈ t.segments → (captures.lookup name).isSome) :
    t.render captures = .ok (t.fill captures) := by
  obtain ⟨segments⟩ := t
  show render.go captures segments = .ok (segments.flatMap (Segment.fill captures))
  induction segments with
  | nil => rfl
  | cons segment rest ih =>
      have hrest := ih fun name hname => h name (List.mem_cons_of_mem _ hname)
      cases segment with
      | literal text =>
          show (render.go captures rest).map (text ++ ·) = _
          rw [hrest]
          rfl
      | placeholder name =>
          obtain ⟨bound, hbound⟩ := Option.isSome_iff_exists.1 (h name List.mem_cons_self)
          have hfill : Segment.fill captures (.placeholder name) = bound := by
            show (captures.lookup name).getD [] = bound
            rw [hbound]
            rfl
          rw [List.flatMap_cons, hfill]
          unfold render.go
          rw [hbound, hrest]
          rfl

theorem Segment.fill_placeholder {captures : Captures} {name : String} {tok : Text}
    (h : captures.lookup name = some tok) : fill captures (.placeholder name) = tok := by
  show (captures.lookup name).getD [] = tok
  rw [h]
  rfl

namespace Captures

/-- Nothing but tokens is bound. -/
def AllTokens (captures : Captures) : Prop :=
  ∀ name tok, captures.lookup name = some tok → IsToken tok

/-- Every placeholder of some segments is bound to a token. -/
def Binds (captures : Captures) (segments : List Segment) : Prop :=
  ∀ name, .placeholder name ∈ segments → ∃ tok, captures.lookup name = some tok ∧ IsToken tok

end Captures

/-! ## §4. Filled segments. -/

namespace Segment

variable {segments : List Segment} {captures : Captures}

/-- A literal stands in the filled text. -/
theorem infix_fill {lit : Text} (h : .literal lit ∈ segments) (captures : Captures) :
    lit <:+: segments.flatMap (fill captures) := by
  obtain ⟨first, last, rfl⟩ := List.append_of_mem h
  refine ⟨first.flatMap (fill captures), last.flatMap (fill captures), ?_⟩
  rw [List.flatMap_append, List.flatMap_cons, List.append_assoc]
  rfl

/-- Filling in depends on what the placeholders are bound to. -/
theorem flatMap_fill_congr {captures' : Captures}
    (h : ∀ name, .placeholder name ∈ segments → captures.lookup name = captures'.lookup name) :
    segments.flatMap (fill captures) = segments.flatMap (fill captures') := by
  have hfill : ∀ s ∈ segments, fill captures s = fill captures' s := by
    intro s hs
    cases s with
    | literal text => rfl
    | placeholder name =>
        show (captures.lookup name).getD [] = (captures'.lookup name).getD []
        rw [h name hs]
  rw [List.flatMap_def, List.flatMap_def, List.map_congr_left hfill]

/-- A filled segment has a character. -/
theorem fill_ne_nil {s : Segment} (hs : s ∈ segments) (hsolid : .literal [] ∉ segments)
    (hbinds : captures.Binds segments) : fill captures s ≠ [] := by
  cases s with
  | literal lit =>
      intro hnil
      have hlit : lit = [] := hnil
      exact hsolid (hlit ▸ hs)
  | placeholder name =>
      obtain ⟨tok, hbound, htok⟩ := hbinds name hs
      rw [fill_placeholder hbound]
      exact htok.ne_nil

theorem flatMap_fill_ne_nil (hne : segments ≠ []) (hsolid : .literal [] ∉ segments)
    (hbinds : captures.Binds segments) : segments.flatMap (fill captures) ≠ [] := by
  obtain ⟨s, rest, rfl⟩ := List.exists_cons_of_ne_nil hne
  rw [List.flatMap_cons]
  intro hnil
  exact fill_ne_nil List.mem_cons_self hsolid hbinds (List.append_eq_nil_iff.1 hnil).1

/-- Whether filled segments end with an identifier character. -/
def endsWithIdent (segments : List Segment) : Bool :=
  match segments.getLast? with
  | some (.literal lit) => endsWithIdentChar lit
  | some (.placeholder _) => true
  | none => false

theorem endsWithIdentChar_fill (hne : segments ≠ []) (hsolid : .literal [] ∉ segments)
    (hbinds : captures.Binds segments) :
    endsWithIdentChar (segments.flatMap (fill captures)) = endsWithIdent segments := by
  have hmem : segments.getLast hne ∈ segments := List.getLast_mem hne
  have hsplit : segments.flatMap (fill captures)
      = segments.dropLast.flatMap (fill captures) ++ fill captures (segments.getLast hne) := by
    conv => lhs; rw [← List.dropLast_concat_getLast hne]
    rw [List.flatMap_append, List.flatMap_singleton]
  rw [hsplit, endsWithIdentChar_append _ (fill_ne_nil hmem hsolid hbinds)]
  unfold endsWithIdent
  rw [List.getLast?_eq_some_getLast hne]
  cases hs : segments.getLast hne with
  | literal lit => rfl
  | placeholder name =>
      rw [hs] at hmem
      obtain ⟨tok, hbound, htok⟩ := hbinds name hmem
      rw [fill_placeholder hbound]
      exact htok.endsWithIdentChar

/-- The number of characters of a kind in the literals of some segments. -/
def literalCount (q : Char → Bool) : List Segment → Nat
  | [] => 0
  | .literal lit :: rest => lit.countP q + literalCount q rest
  | .placeholder _ :: rest => literalCount q rest

/-- Tokens have no characters of a kind that no identifier has. -/
theorem countP_fill {q : Char → Bool} (hq : ∀ c, isIdentChar c = true → q c = false)
    (hbinds : captures.Binds segments) :
    (segments.flatMap (fill captures)).countP q = literalCount q segments := by
  induction segments with
  | nil => rfl
  | cons s segments ih =>
      have htail := ih fun name h => hbinds name (List.mem_cons_of_mem _ h)
      rw [List.flatMap_cons, List.countP_append, htail]
      cases s with
      | literal lit => rfl
      | placeholder name =>
          obtain ⟨tok, hbound, htok⟩ := hbinds name List.mem_cons_self
          have hnone : tok.countP q = 0 := by
            refine List.countP_eq_zero.2 fun c hc => ?_
            rw [hq c (htok.isIdentChar hc)]
            exact Bool.false_ne_true
          rw [fill_placeholder hbound, hnone, Nat.zero_add]
          rfl

/-- The same of one such character. -/
theorem count_fill {c : Char} (hc : isIdentChar c = false) (hbinds : captures.Binds segments) :
    (segments.flatMap (fill captures)).count c = literalCount (· == c) segments := by
  refine countP_fill (fun d hd => beq_false_of_ne ?_) hbinds
  intro heq
  rw [heq, hc] at hd
  cases hd

end Segment

end ArtifactPatch
