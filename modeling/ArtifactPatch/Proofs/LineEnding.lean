/-
  ArtifactPatch.Proofs.LineEnding
  ───────────────────────────────
  **READING AND WRITING LINE ENDINGS ARE INVERSE.**

  A text with a newline counts as CRLF exactly if every newline in it follows
  a carriage return (`detect_eq_crlf_iff`).  Then every pair is one newline to
  the matcher, carriage returns of their own stay, and writing gives the text
  back (`apply_normalize`).  Writing changes each character by itself, so it
  goes through a splice piece by piece (`apply_weave`), and it never leaves a
  newline alone (`crlfThroughout_apply`).  New content that has the pairs of the
  old, and no fewer newlines, is read back as it was written, in the same
  convention (`ofRaw_toRaw_withContent`).
-/
import ArtifactPatch.LineEnding
import ArtifactPatch.Proofs.Text.Search
import ArtifactPatch.Proofs.Pattern.Tiling

namespace ArtifactPatch

namespace LineEnding

/-! ## §1. Newlines that follow a carriage return. -/

/-- Every newline follows a carriage return. -/
def CrlfThroughout (t : Text) : Prop :=
  ∀ before after, t = before ++ '\n' :: after → before.getLast? = some '\r'

theorem crlfThroughout_nil : CrlfThroughout [] := by
  intro before after h
  have hlength := congrArg List.length h
  rw [List.length_append, List.length_cons, List.length_nil] at hlength
  omega

/-- No newline follows another. -/
theorem not_crlfThroughout_newline (t : Text) : ¬CrlfThroughout ('\n' :: t) := by
  intro h
  cases h [] t rfl

/-- A pair in front changes nothing. -/
theorem crlfThroughout_pair {t : Text} :
    CrlfThroughout (['\r', '\n'] ++ t) ↔ CrlfThroughout t := by
  constructor
  · intro h before after ht
    have hlast := h (['\r', '\n'] ++ before) after (by rw [ht, List.append_assoc])
    cases before with
    | nil => exact absurd hlast (by decide)
    | cons c before => exact hlast
  · intro h before after ht
    match before with
    | [] => cases ht
    | ['\r'] => rfl
    | [c] =>
        cases ht
        rfl
    | c :: d :: before =>
        have hcut := List.cons.inj (List.cons.inj ht).2
        have hlast := h before after hcut.2
        cases before with
        | nil => cases hlast
        | cons e before => exact hlast

/-- Nor does any other character at which there is no pair. -/
theorem crlfThroughout_cons {c : Char} {t : Text} (hc : c ≠ '\n')
    (hmiss : Text.after? ['\r', '\n'] (c :: t) = none) :
    CrlfThroughout (c :: t) ↔ CrlfThroughout t := by
  constructor
  · intro h before after ht
    have hlast := h (c :: before) after (by rw [ht, List.cons_append])
    cases before with
    | nil =>
        -- a carriage return here would begin a pair
        obtain rfl := Option.some.inj hlast
        have hpair : Text.after? ['\r', '\n'] ('\r' :: t) = some after :=
          Text.after?_eq_some_iff.2 (by rw [ht]; rfl)
        rw [hpair] at hmiss
        cases hmiss
    | cons d before => exact hlast
  · intro h before after ht
    cases before with
    | nil => exact absurd (List.cons.inj ht).1 hc
    | cons d before =>
        have hlast := h before after (List.cons.inj ht).2
        cases before with
        | nil => cases hlast
        | cons e before => exact hlast

/-! ## §2. Detecting. -/

theorem pair_ne_nil : (['\r', '\n'] : Text) ≠ [] := List.cons_ne_nil _ _

theorem newline_ne_nil : (['\n'] : Text) ≠ [] := List.cons_ne_nil _ _

theorem pairCount_pair (t : Text) : pairCount (['\r', '\n'] ++ t) = pairCount t + 1 :=
  Text.occurrences_hit pair_ne_nil t

theorem pairCount_cons {c : Char} {t : Text}
    (hmiss : Text.after? ['\r', '\n'] (c :: t) = none) : pairCount (c :: t) = pairCount t :=
  Text.occurrences_miss pair_ne_nil hmiss

theorem count_pair (t : Text) : (['\r', '\n'] ++ t).count '\n' = t.count '\n' + 1 := by
  simp

theorem pairCount_le_count (t : Text) : pairCount t ≤ t.count '\n' := by
  induction t using Text.search_induction pair_ne_nil with
  | nil => exact Nat.le_refl 0
  | hit t ih =>
      rw [pairCount_pair, count_pair]
      omega
  | miss c t hmiss ih =>
      rw [pairCount_cons hmiss, List.count_cons]
      omega

/-- All newlines belong to pairs exactly if each follows a carriage return. -/
theorem pairCount_eq_count_iff (t : Text) :
    pairCount t = t.count '\n' ↔ CrlfThroughout t := by
  induction t using Text.search_induction pair_ne_nil with
  | nil => exact iff_of_true rfl crlfThroughout_nil
  | hit t ih =>
      rw [pairCount_pair, count_pair, crlfThroughout_pair, ← ih]
      omega
  | miss c t hmiss ih =>
      rw [pairCount_cons hmiss]
      by_cases hc : c = '\n'
      · subst hc
        have hle := pairCount_le_count t
        rw [List.count_cons_self]
        refine iff_of_false ?_ (not_crlfThroughout_newline t)
        omega
      · rw [List.count_cons_of_ne hc, crlfThroughout_cons hc hmiss]
        exact ih

/-- **When a text counts as CRLF.** -/
theorem detect_eq_crlf_iff (t : Text) :
    detect t = .crlf ↔ '\n' ∈ t ∧ CrlfThroughout t := by
  rw [← pairCount_eq_count_iff, ← List.count_pos_iff]
  unfold detect
  dsimp only
  split
  next hzero =>
    refine iff_of_false (fun h => by cases h) ?_
    intro h
    omega
  next hsome =>
    split
    next heq => exact iff_of_true rfl ⟨by omega, heq⟩
    next hne => exact iff_of_false (fun h => by cases h) fun h => hne h.2

/-! ## §3. Writing. -/

theorem apply_crlf_newline (t : Text) : apply .crlf ('\n' :: t) = '\r' :: '\n' :: apply .crlf t :=
  Text.replaceAll_hit newline_ne_nil t

theorem apply_crlf_cons {c : Char} (hc : c ≠ '\n') (t : Text) :
    apply .crlf (c :: t) = c :: apply .crlf t := by
  have hmiss : Text.after? ['\n'] (c :: t) = none := if_neg fun h => hc h.symm
  exact Text.replaceAll_miss newline_ne_nil hmiss

/-- **Writing changes each character by itself.** -/
theorem apply_append (e : LineEnding) (a b : Text) : e.apply (a ++ b) = e.apply a ++ e.apply b := by
  cases e with
  | lf => rfl
  | mixed => rfl
  | crlf =>
      induction a with
      | nil =>
          show apply .crlf b = apply .crlf [] ++ apply .crlf b
          unfold apply
          rw [Text.replaceAll_nil]
          rfl
      | cons c a ih =>
          by_cases hc : c = '\n'
          · subst hc
            rw [List.cons_append, apply_crlf_newline, apply_crlf_newline, ih]
            rfl
          · rw [List.cons_append, apply_crlf_cons hc, apply_crlf_cons hc, ih]
            rfl

theorem apply_nil (e : LineEnding) : e.apply [] = [] := by
  cases e with
  | lf => rfl
  | mixed => rfl
  | crlf => exact Text.replaceAll_nil

theorem apply_flatten (e : LineEnding) (ts : List Text) :
    e.apply ts.flatten = (ts.map e.apply).flatten := by
  induction ts with
  | nil => exact e.apply_nil
  | cons t ts ih => rw [List.flatten_cons, apply_append, ih, List.map_cons, List.flatten_cons]

/-- Writing goes through a splice. -/
theorem apply_weave (e : LineEnding) (gaps pieces : List Text) :
    e.apply (Text.weave gaps pieces) = Text.weave (gaps.map e.apply) (pieces.map e.apply) := by
  induction gaps generalizing pieces with
  | nil => exact e.apply_flatten pieces
  | cons gap gaps ih =>
      cases pieces with
      | nil =>
          show e.apply (gap ++ gaps.flatten) = e.apply gap ++ (gaps.map e.apply).flatten
          rw [apply_append, apply_flatten]
      | cons piece pieces =>
          show e.apply (gap ++ piece ++ Text.weave gaps pieces)
            = e.apply gap ++ e.apply piece ++ Text.weave (gaps.map e.apply) (pieces.map e.apply)
          rw [apply_append, apply_append, ih]

/-- What is written as CRLF has no newline alone. -/
theorem crlfThroughout_apply (t : Text) : CrlfThroughout (apply .crlf t) := by
  induction t with
  | nil =>
      rw [apply_nil]
      exact crlfThroughout_nil
  | cons c t ih =>
      by_cases hc : c = '\n'
      · subst hc
        rw [apply_crlf_newline]
        exact crlfThroughout_pair.2 ih
      · rw [apply_crlf_cons hc]
        cases hafter : Text.after? ['\r', '\n'] (c :: apply .crlf t) with
        | none => exact (crlfThroughout_cons hc hafter).2 ih
        | some rest =>
            have hsplit := Text.after?_eq_some_iff.1 hafter
            -- the text behind would begin with a newline of its own
            have htail : apply .crlf t = '\n' :: rest := (List.cons.inj hsplit).2
            rw [htail] at ih
            exact absurd ih (not_crlfThroughout_newline rest)

/-! ## §4. The round trip. -/

theorem normalize_crlf_pair (t : Text) :
    normalize .crlf (['\r', '\n'] ++ t) = '\n' :: normalize .crlf t :=
  Text.replaceAll_hit pair_ne_nil t

theorem normalize_crlf_cons {c : Char} {t : Text}
    (hmiss : Text.after? ['\r', '\n'] (c :: t) = none) :
    normalize .crlf (c :: t) = c :: normalize .crlf t :=
  Text.replaceAll_miss pair_ne_nil hmiss

theorem apply_normalize_crlf {t : Text} (h : CrlfThroughout t) :
    apply .crlf (normalize .crlf t) = t := by
  induction t using Text.search_induction pair_ne_nil with
  | nil =>
      have hnil : normalize .crlf [] = [] := Text.replaceAll_nil
      rw [hnil, apply_nil]
  | hit t ih =>
      rw [normalize_crlf_pair, apply_crlf_newline, ih (crlfThroughout_pair.1 h)]
      rfl
  | miss c t hmiss ih =>
      -- a newline with no pair before it would stand alone
      have hc : c ≠ '\n' := by
        intro hc
        subst hc
        exact not_crlfThroughout_newline t h
      rw [normalize_crlf_cons hmiss, apply_crlf_cons hc,
        ih ((crlfThroughout_cons hc hmiss).1 h)]

/-- **What is read is what is written.** -/
theorem apply_normalize (t : Text) : (detect t).apply ((detect t).normalize t) = t := by
  cases h : detect t with
  | lf => rfl
  | mixed => rfl
  | crlf => exact apply_normalize_crlf ((detect_eq_crlf_iff t).1 h).2

/-! ## §5. Other content in the same convention. -/

/-- No pair goes across the edges of such a text, and there is none in it. -/
structure Level (t : Text) : Prop where
  ne_nil : t ≠ []
  head?_ne : t.head? ≠ some '\n'
  not_mem : '\r' ∉ t

theorem after?_pair_eq_none_iff {c : Char} {t : Text} :
    Text.after? ['\r', '\n'] (c :: t) = none ↔ (c = '\r' → t.head? ≠ some '\n') := by
  cases t with
  | nil => simp [Text.after?]
  | cons d t => simp [Text.after?, eq_comm]

/-- Pairs are counted on both sides of a place that none goes across. -/
theorem pairCount_append {a b : Text} (h : a.getLast? = some '\r' → b.head? ≠ some '\n') :
    pairCount (a ++ b) = pairCount a + pairCount b := by
  induction a using Text.search_induction pair_ne_nil with
  | nil =>
      have hnil : pairCount [] = 0 := Text.occurrences_nil
      rw [List.nil_append, hnil, Nat.zero_add]
  | hit a ih =>
      have htail : a.getLast? = some '\r' → b.head? ≠ some '\n' := by
        intro hlast
        refine h ?_
        rw [List.getLast?_append, hlast]
        rfl
      rw [List.append_assoc, pairCount_pair, pairCount_pair, ih htail]
      omega
  | miss c a hmiss ih =>
      have htail : a.getLast? = some '\r' → b.head? ≠ some '\n' := by
        intro hlast
        refine h ?_
        rw [List.getLast?_cons, hlast]
        rfl
      have hmiss' : Text.after? ['\r', '\n'] (c :: (a ++ b)) = none := by
        rw [after?_pair_eq_none_iff] at hmiss ⊢
        intro hc
        cases a with
        | nil => exact h (by rw [hc]; rfl)
        | cons d a => exact hmiss hc
      rw [List.cons_append, pairCount_cons hmiss', pairCount_cons hmiss, ih htail]

theorem pairCount_of_not_mem {t : Text} (h : '\r' ∉ t) : pairCount t = 0 := by
  induction t using Text.search_induction pair_ne_nil with
  | nil => exact Text.occurrences_nil
  | hit t _ => exact absurd List.mem_cons_self h
  | miss c t hmiss ih => rw [pairCount_cons hmiss, ih fun ht => h (List.mem_cons_of_mem c ht)]

theorem Level.head?_append_ne {b : Text} (h : Level b) (c : Text) {a : Text} :
    a.getLast? = some '\r' → (b ++ c).head? ≠ some '\n' := by
  intro _
  obtain ⟨d, b, rfl⟩ := List.exists_cons_of_ne_nil h.ne_nil
  exact h.head?_ne

/-- A level text in front adds no pair and takes none. -/
theorem Level.pairCount_append {a : Text} (h : Level a) (b : Text) :
    pairCount (a ++ b) = pairCount b := by
  have hlast : a.getLast? ≠ some '\r' := fun hlast => h.not_mem (List.mem_of_getLast? hlast)
  rw [LineEnding.pairCount_append fun heq => absurd heq hlast, pairCount_of_not_mem h.not_mem,
    Nat.zero_add]

/-- Level pieces make no difference to the pairs of a splice. -/
theorem pairCount_weave {α : Type} {old new : α → Text} (gaps : List Text) {l : List α}
    (hold : ∀ a ∈ l, Level (old a)) (hnew : ∀ a ∈ l, Level (new a)) :
    pairCount (Text.weave gaps (l.map old)) = pairCount (Text.weave gaps (l.map new)) := by
  induction l generalizing gaps with
  | nil => rfl
  | cons a l ih =>
      have hfirst := hold a List.mem_cons_self
      have hfirst' := hnew a List.mem_cons_self
      have hrest := fun gaps => ih gaps (fun b hb => hold b (List.mem_cons_of_mem a hb))
        fun b hb => hnew b (List.mem_cons_of_mem a hb)
      cases gaps with
      | nil =>
          show pairCount (old a ++ Text.weave [] (l.map old))
            = pairCount (new a ++ Text.weave [] (l.map new))
          rw [hfirst.pairCount_append, hfirst'.pairCount_append, hrest []]
      | cons gap gaps =>
          show pairCount (gap ++ old a ++ Text.weave gaps (l.map old))
            = pairCount (gap ++ new a ++ Text.weave gaps (l.map new))
          rw [List.append_assoc, List.append_assoc, pairCount_append (hfirst.head?_append_ne _),
            pairCount_append (hfirst'.head?_append_ne _), hfirst.pairCount_append,
            hfirst'.pairCount_append, hrest gaps]

/-- A splice with more of a character in every piece has more of it. -/
theorem count_weave_le {α : Type} {old new : α → Text} {c : Char} (gaps : List Text) {l : List α}
    (h : ∀ a ∈ l, (old a).count c ≤ (new a).count c) :
    (Text.weave gaps (l.map old)).count c ≤ (Text.weave gaps (l.map new)).count c := by
  induction l generalizing gaps with
  | nil => exact Nat.le_refl _
  | cons a l ih =>
      have hfirst := h a List.mem_cons_self
      have hrest := fun gaps => ih gaps fun b hb => h b (List.mem_cons_of_mem a hb)
      cases gaps with
      | nil =>
          show (old a ++ Text.weave [] (l.map old)).count c
            ≤ (new a ++ Text.weave [] (l.map new)).count c
          rw [List.count_append, List.count_append]
          exact Nat.add_le_add hfirst (hrest [])
      | cons gap gaps =>
          show (gap ++ old a ++ Text.weave gaps (l.map old)).count c
            ≤ (gap ++ new a ++ Text.weave gaps (l.map new)).count c
          rw [List.count_append, List.count_append, List.count_append, List.count_append]
          exact Nat.add_le_add (Nat.add_le_add_left hfirst _) (hrest gaps)

/-- What was written as CRLF is read as it was. -/
theorem normalize_apply_crlf (t : Text) : normalize .crlf (apply .crlf t) = t := by
  induction t with
  | nil =>
      rw [apply_nil]
      exact Text.replaceAll_nil
  | cons c t ih =>
      by_cases hc : c = '\n'
      · subst hc
        rw [apply_crlf_newline]
        exact (normalize_crlf_pair _).trans (congrArg _ ih)
      · have hmiss : Text.after? ['\r', '\n'] (c :: apply .crlf t) = none := by
          refine after?_pair_eq_none_iff.2 fun _ hhead => ?_
          -- what is written does not begin with a newline of its own
          obtain ⟨rest, hrest⟩ := List.head?_eq_some_iff.1 hhead
          exact not_crlfThroughout_newline rest (hrest ▸ crlfThroughout_apply t)
        rw [apply_crlf_cons hc, normalize_crlf_cons hmiss, ih]

theorem newline_mem_apply_crlf {t : Text} : '\n' ∈ apply .crlf t ↔ '\n' ∈ t := by
  induction t with
  | nil => rw [apply_nil]
  | cons c t ih =>
      by_cases hc : c = '\n'
      · subst hc
        rw [apply_crlf_newline]
        simp
      · rw [apply_crlf_cons hc, List.mem_cons, List.mem_cons, ih]

/-- Only CRLF is written in another form than it is matched in. -/
theorem apply_of_ne {e : LineEnding} (h : e ≠ .crlf) (t : Text) : e.apply t = t := by
  cases e with
  | crlf => exact absurd rfl h
  | lf => rfl
  | mixed => rfl

theorem normalize_of_ne {e : LineEnding} (h : e ≠ .crlf) (t : Text) : e.normalize t = t := by
  cases e with
  | crlf => exact absurd rfl h
  | lf => rfl
  | mixed => rfl

/-- The convention of a text that is not CRLF stays if no pair comes or goes and
newlines are only added. -/
theorem detect_eq_of_counts {old new : Text} (hpairs : pairCount new = pairCount old)
    (hcount : old.count '\n' ≤ new.count '\n') (hold : detect old ≠ .crlf) :
    detect new = detect old := by
  have hle := pairCount_le_count old
  unfold detect at hold ⊢
  dsimp only at hold ⊢
  rw [hpairs]
  by_cases hzero : pairCount old = 0
  · rw [if_pos hzero, if_pos hzero]
  · rw [if_neg hzero] at hold ⊢
    rw [if_neg hzero]
    by_cases hall : pairCount old = old.count '\n'
    · rw [if_pos hall] at hold
      exact absurd rfl hold
    · rw [if_neg hall, if_neg (by omega)]

/-! ## §6. Content that keeps a convention. -/

theorem pairCount_eq_zero_iff (t : Text) : pairCount t = 0 ↔ ¬['\r', '\n'] <:+: t := by
  induction t using Text.search_induction pair_ne_nil with
  | nil =>
      refine iff_of_true Text.occurrences_nil fun hpair => ?_
      exact pair_ne_nil (List.infix_nil.1 hpair)
  | hit t _ =>
      rw [pairCount_pair]
      exact iff_of_false (Nat.succ_ne_zero _) fun hnone => hnone (List.prefix_append _ t).isInfix
  | miss c t hmiss ih =>
      rw [pairCount_cons hmiss, ih, List.infix_cons_iff, not_or]
      -- a pair in front would be a hit
      refine (and_iff_right fun hfront => ?_).symm
      obtain ⟨rest, hrest⟩ := hfront
      rw [Text.after?_eq_some_iff.2 hrest.symm] at hmiss
      cases hmiss

/-- **When a text counts as LF.** -/
theorem detect_eq_lf_iff (t : Text) : detect t = .lf ↔ ¬['\r', '\n'] <:+: t := by
  rw [← pairCount_eq_zero_iff]
  unfold detect
  dsimp only
  split
  next hzero => exact iff_of_true rfl hzero
  next hsome =>
    refine iff_of_false ?_ hsome
    split
    next => exact fun h => by cases h
    next => exact fun h => by cases h

/-- **When a text counts as mixed.** -/
theorem detect_eq_mixed_iff (t : Text) :
    detect t = .mixed ↔ ['\r', '\n'] <:+: t ∧ ¬CrlfThroughout t := by
  have hnone := pairCount_eq_zero_iff t
  rw [← pairCount_eq_count_iff]
  unfold detect
  dsimp only
  split
  next hzero => exact iff_of_false (fun h => by cases h) fun h => hnone.1 hzero h.1
  next hsome =>
    have hpair : ['\r', '\n'] <:+: t := Classical.not_not.1 fun h => hsome (hnone.2 h)
    split
    next hall => exact iff_of_false (fun h => by cases h) fun h => h.2 hall
    next hne => exact iff_of_true rfl ⟨hpair, hne⟩

/-- Content that, written in a convention, makes a text of that convention. -/
def Fits : LineEnding → Text → Prop
  | .lf, content => ¬['\r', '\n'] <:+: content
  | .crlf, content => '\n' ∈ content
  | .mixed, content => ['\r', '\n'] <:+: content ∧ ¬CrlfThroughout content

/-- **Which content keeps a convention.** -/
theorem detect_apply_eq_iff (e : LineEnding) (content : Text) :
    detect (e.apply content) = e ↔ e.Fits content := by
  cases e with
  | lf => exact detect_eq_lf_iff content
  | mixed => exact detect_eq_mixed_iff content
  | crlf =>
      rw [detect_eq_crlf_iff, newline_mem_apply_crlf]
      exact and_iff_left (crlfThroughout_apply content)

theorem normalize_apply (e : LineEnding) (content : Text) :
    e.normalize (e.apply content) = content := by
  cases e with
  | lf => rfl
  | mixed => rfl
  | crlf => exact normalize_apply_crlf content

theorem apply_crlf_of_not_mem {content : Text} (h : '\n' ∉ content) :
    apply .crlf content = content := by
  induction content with
  | nil => exact apply_nil .crlf
  | cons c content ih =>
      rw [List.mem_cons, not_or] at h
      rw [apply_crlf_cons (Ne.symm h.1), ih h.2]

/-- Writing as CRLF adds a character for each newline. -/
theorem length_apply_crlf (content : Text) :
    (apply .crlf content).length = content.length + content.count '\n' := by
  induction content with
  | nil =>
      rw [apply_nil]
      rfl
  | cons c content ih =>
      by_cases hc : c = '\n'
      · subst hc
        rw [apply_crlf_newline, List.count_cons_self, List.length_cons, List.length_cons,
          List.length_cons, ih]
        omega
      · rw [apply_crlf_cons hc, List.count_cons_of_ne hc, List.length_cons, List.length_cons, ih]
        omega

/-- A text that counts as CRLF is not matched as it stands. -/
theorem normalize_ne_of_detect_eq_crlf {t : Text} (h : detect t = .crlf) :
    normalize .crlf t ≠ t := by
  obtain ⟨hmem, hthroughout⟩ := (detect_eq_crlf_iff t).1 h
  intro hsame
  have hback := apply_normalize_crlf hthroughout
  rw [hsame] at hback
  -- so writing would have to add a character and leave the text as it is
  have hlength := length_apply_crlf t
  rw [hback] at hlength
  have hcount := List.count_pos_iff.2 hmem
  omega

end LineEnding

/-- A text is written back as it was read. -/
theorem ArtifactText.toRaw_ofRaw (raw : Text) : (ofRaw raw).toRaw = raw :=
  LineEnding.apply_normalize raw

/-- **What is written is read back exactly if it keeps its convention.** -/
theorem ArtifactText.ofRaw_toRaw_eq_iff (text : ArtifactText) :
    ofRaw text.toRaw = text ↔ text.lineEnding.Fits text.content := by
  rw [← LineEnding.detect_apply_eq_iff]
  constructor
  · intro hback
    exact congrArg ArtifactText.lineEnding hback
  · intro hdetect
    show (⟨(LineEnding.detect text.toRaw).normalize text.toRaw, LineEnding.detect text.toRaw⟩ :
      ArtifactText) = text
    rw [show LineEnding.detect text.toRaw = text.lineEnding from hdetect]
    show (⟨text.lineEnding.normalize (text.lineEnding.apply text.content), text.lineEnding⟩ :
      ArtifactText) = text
    rw [LineEnding.normalize_apply]

/-- **Its content is read back** unless a text that was not written as CRLF now
counts as CRLF. -/
theorem ArtifactText.content_ofRaw_toRaw_eq_iff (text : ArtifactText) :
    (ofRaw text.toRaw).content = text.content ↔
      text.lineEnding = .crlf ∨ LineEnding.detect text.content ≠ .crlf := by
  by_cases hcrlf : text.lineEnding = .crlf
  · refine iff_of_true ?_ (.inl hcrlf)
    by_cases hmem : '\n' ∈ text.content
    · have hfits : text.lineEnding.Fits text.content := by
        rw [hcrlf]
        exact hmem
      rw [(ofRaw_toRaw_eq_iff text).2 hfits]
    · -- without a newline there is nothing to convert, neither way
      have hraw : text.toRaw = text.content := by
        show text.lineEnding.apply text.content = _
        rw [hcrlf]
        exact LineEnding.apply_crlf_of_not_mem hmem
      have hother : LineEnding.detect text.content ≠ .crlf := by
        intro hdetect
        exact hmem ((LineEnding.detect_eq_crlf_iff _).1 hdetect).1
      rw [hraw]
      exact LineEnding.normalize_of_ne hother text.content
  · have hraw : text.toRaw = text.content := LineEnding.apply_of_ne hcrlf text.content
    rw [hraw, or_iff_right hcrlf]
    by_cases hdetect : LineEnding.detect text.content = .crlf
    · refine iff_of_false ?_ fun h => h hdetect
      show (LineEnding.detect text.content).normalize text.content ≠ text.content
      rw [hdetect]
      exact LineEnding.normalize_ne_of_detect_eq_crlf hdetect
    · exact iff_of_true (LineEnding.normalize_of_ne hdetect text.content) hdetect

/-- **New content is read back as it was written.** -/
theorem ArtifactText.ofRaw_toRaw_withContent {raw new : Text}
    (hpairs : LineEnding.pairCount new = LineEnding.pairCount (ofRaw raw).content)
    (hcount : (ofRaw raw).content.count '\n' ≤ new.count '\n') :
    ofRaw ((ofRaw raw).withContent new).toRaw = (ofRaw raw).withContent new := by
  have hcontent : (ofRaw raw).content = (LineEnding.detect raw).normalize raw := rfl
  rw [hcontent] at hpairs hcount
  have hback : LineEnding.detect ((LineEnding.detect raw).apply new) = LineEnding.detect raw ∧
      (LineEnding.detect raw).normalize ((LineEnding.detect raw).apply new) = new := by
    by_cases hcrlf : LineEnding.detect raw = .crlf
    · rw [hcrlf] at hcount ⊢
      obtain ⟨hmem, hthroughout⟩ := (LineEnding.detect_eq_crlf_iff raw).1 hcrlf
      -- the newlines of the text are those of its content
      rw [← LineEnding.apply_normalize_crlf hthroughout, LineEnding.newline_mem_apply_crlf,
        ← List.count_pos_iff] at hmem
      have hnew : '\n' ∈ LineEnding.apply .crlf new :=
        LineEnding.newline_mem_apply_crlf.2 (List.count_pos_iff.1 (by omega))
      exact ⟨(LineEnding.detect_eq_crlf_iff _).2 ⟨hnew, LineEnding.crlfThroughout_apply new⟩,
        LineEnding.normalize_apply_crlf new⟩
    · rw [LineEnding.normalize_of_ne hcrlf] at hpairs hcount
      rw [LineEnding.apply_of_ne hcrlf, LineEnding.normalize_of_ne hcrlf]
      exact ⟨LineEnding.detect_eq_of_counts hpairs hcount hcrlf, rfl⟩
  show (⟨(LineEnding.detect ((LineEnding.detect raw).apply new)).normalize
      ((LineEnding.detect raw).apply new),
    LineEnding.detect ((LineEnding.detect raw).apply new)⟩ : ArtifactText)
      = ⟨new, LineEnding.detect raw⟩
  rw [hback.1, hback.2]

end ArtifactPatch
