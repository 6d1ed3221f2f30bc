/-
  ArtifactPatch.Proofs.Patch.Applied
  ──────────────────────────────────
  **WHAT APPLYING RULES WITH SUCCESS DOES.**

  A success has taken a backup (`BackedUp`), planned on the bytes that were
  there, and put the planned text in the place of the artifact
  (`Finds.applied_ensures`, and `applied_of_exec` where calls fail only for
  reasons of the tree).  The artifact is found where it was throughout.  Only a
  look at the slot that fails leads elsewhere: the artifact is copied into the
  slot, whatever stood there (`Recopied`).
-/
import ArtifactPatch.Proofs.Patch.Reference

namespace ArtifactPatch

namespace Store

variable {s : Store} {name : String} {m m₁ m' : Machine} {dir : Location} {file : String}
  {bytes : ByteArray} {mode : Mode} {frail : Call → Prop}

/-! ## §1. The state after a backup. -/

/-- What taking a backup leaves: a slot that was taken, or a copy in the slot. -/
inductive BackedUp (m : Machine) (dir : Location) (file : String) (bytes : ByteArray) (mode : Mode) :
    Machine → Prop
  | present {st : Stat} (h : m.stat (.ofLocation (dir ++ [slotName file])) = .ok st) :
      BackedUp m dir file bytes mode m
  | created {m₁ : Machine} (hfree : ∀ st, m.stat (.ofLocation (dir ++ [slotName file])) ≠ .ok st)
      (htakes : m.Takes dir (slotName file))
      (h : m.Replaced (dir ++ [slotName file]) bytes mode m₁) : BackedUp m dir file bytes mode m₁

/-- A copy in the slot that was made because the look at the slot failed. -/
structure Recopied (frail : Call → Prop) (m : Machine) (dir : Location) (file : String)
    (bytes : ByteArray) (mode : Mode) (m₁ : Machine) : Prop where
  frail : frail (.stat (.ofLocation (dir ++ [slotName file])))
  takes : m.Takes dir (slotName file)
  copied : m.Replaced (dir ++ [slotName file]) bytes mode m₁

/-- A route leads to nothing that is not seen at its end. -/
theorem not_leads_of_stat {l : Location} (htext : (Route.ofLocation l).checkText = .ok ())
    (hstat : ∀ st, m.stat (.ofLocation l) ≠ .ok st) (l' : Location) :
    ¬m.tree.Leads Tree.maxLinks [] l false l' := by
  intro hleads
  have hlocate : m.locate true (.ofLocation l) = .ok l' :=
    Machine.locate_eq_ok_iff.2 ⟨htext, (Route.locate_eq_ok_iff_leads rfl).2 hleads⟩
  rcases hleads.folder_or_file .root with hfolder | ⟨_, _, bytes', mode', -, -, -, hfile⟩
  · obtain ⟨mode', hmode'⟩ := hfolder.get?_eq
    exact hstat _ (Machine.stat_eq_directory_iff.2 ⟨l', hlocate, hmode'⟩)
  · exact hstat _ (Machine.stat_eq_file_iff.2 ⟨l', bytes', hlocate, hfile⟩)

/-- A place where nothing is seen is free, or holds a link that leads nowhere. -/
theorem leadsNowhere_of_stat (hdir : m.tree.IsFolder dir) {place : String}
    (hplace : Tree.IsPlain place) (htext : (Route.ofLocation (dir ++ [place])).checkText = .ok ())
    (hstat : ∀ st, m.stat (.ofLocation (dir ++ [place])) ≠ .ok st) {n : Node}
    (hn : m.tree.get? (dir ++ [place]) = some n) : m.tree.LeadsNowhere (dir ++ [place]) := by
  have hparent : Location.parent (dir ++ [place]) = dir := Location.parent_concat dir place
  have hseen (l : Location) : ¬m.tree.Leads Tree.maxLinks dir [place] false l := by
    intro hleads
    have hwalk := Tree.walk_folder hdir true Tree.maxLinks [place] false
    rw [Tree.walk_of_leads hleads] at hwalk
    exact not_leads_of_stat htext hstat l (Tree.walk_eq_node_iff.1 hwalk)
  -- directories and files are seen, so a link is all that is left
  cases n with
  | directory mode' => exact absurd (.down hplace hn (.here _ _ _)) (hseen _)
  | file bytes' mode' => exact absurd (.file hplace hn) (hseen _)
  | link target =>
      refine ⟨target, hn, ?_⟩
      intro l hleads
      rw [hparent] at hleads
      refine hseen l (.link hplace hn ?_)
      rw [List.append_nil]
      exact hleads

theorem BackedUp.persists (h : BackedUp m dir file bytes mode m₁) (hdir : m.tree.IsFolder dir) :
    m.tree.Persists m₁.tree := by
  cases h with
  | present => exact fun l n hn => .inr ⟨n, hn, Tree.SameShape.refl n⟩
  | created hfree htakes h =>
      refine h.persists fun n hn => .inl ?_
      exact leadsNowhere_of_stat hdir ⟨slotName_ne_dot file, slotName_ne_dots file, htakes.short⟩
        htakes.text hfree hn

/-- A backup leaves the artifact as it is. -/
theorem BackedUp.finds (h : BackedUp m dir file bytes mode m₁)
    (hfinds : s.Finds name m dir file bytes mode) : s.Finds name m₁ dir file bytes mode := by
  refine hfinds.persists (h.persists hfinds.hasFile.folder) ?_
  cases h with
  | present => exact hfinds.hasFile.node
  | created hfree htakes h =>
      rw [h.get?_of_ne (place_ne_slot dir file)]
      exact hfinds.hasFile.node

/-- A backup is taken or found, or one is made because the look at the slot
failed. -/
theorem Finds.backedUp_or_recopied (h : s.Finds name m dir file bytes mode)
    {E : StoreError → Machine → Prop}
    (herr : ∀ e n m', (∃ c, frail c) ∨ e.OfDisk → m.Aside (dir ++ [tempName n]) m' → E e m') :
    Attempt.Ensures frail (fun _ => True) (s.backup name)
      (fun _ m₁ => BackedUp m dir file bytes mode m₁ ∨ Recopied frail m dir file bytes mode m₁)
      E m := by
  refine h.backup_ensures (fun _ _ _ => trivial) ?_ ?_
    fun e n m' hfail hgivenUp => herr e n m' (hfail.imp_right And.left) hgivenUp.aside
  · intro st hst
    rw [slotOf_concat] at hst
    exact .inl (.present hst)
  · intro hno hwritable m₁ hreplaced
    rw [slotOf_concat] at hno hreplaced
    refine ⟨trivial, ?_⟩
    rcases hno with hfrail | hfree
    · exact .inr ⟨hfrail, hwritable.target, hreplaced⟩
    · exact .inl (.created hfree hwritable.target hreplaced)

/-- Where looks at the slot do not fail, a backup is taken or found. -/
theorem BackedUp.of_backup (h : s.Finds name m dir file bytes mode)
    (hsturdy : ¬frail (.stat (.ofLocation (dir ++ [slotName file]))))
    {E : StoreError → Machine → Prop}
    (herr : ∀ e n m', (∃ c, frail c) ∨ e.OfDisk → m.Aside (dir ++ [tempName n]) m' → E e m') :
    Attempt.Ensures frail (fun _ => True) (s.backup name)
      (fun _ m₁ => BackedUp m dir file bytes mode m₁) E m := by
  refine (h.backedUp_or_recopied herr).mono ?_ fun _ _ he => he
  intro o m₁ hbacked
  exact hbacked.resolve_right fun hrecopied => hsturdy hrecopied.frail

/-- Behind a copy that was made blindly, the artifact is found where it was, unless
its path led through a link in the slot. -/
theorem Recopied.place_eq (h : Recopied frail m dir file bytes mode m₁)
    (hfinds : s.Finds name m dir file bytes mode) {place : String}
    (hafter : s.Finds name m₁ dir place bytes mode) :
    place = file ∨ place = slotName file ∧
      ∃ target, m.tree.get? (dir ++ [slotName file]) = some (.link target) := by
  by_cases hlink : ∃ target, m.tree.get? (dir ++ [slotName file]) = some (.link target)
  · obtain ⟨-, hplace, -⟩ := hfinds.foundNear_of_copy h.copied _ _ _ _ hafter
    exact hplace.imp_right fun hslot => ⟨hslot, hlink⟩
  · -- a copy in a free place, or over a file, leaves all paths as they are
    have hkeep : m.tree.Persists m₁.tree := by
      refine h.copied.persists fun n hn => .inr ?_
      cases n with
      | file => trivial
      | directory mode' => exact absurd hn (h.takes.free_or_file mode')
      | link target => exact absurd ⟨target, hn⟩ hlink
    have hlive := (h.copied.get?_of_ne (place_ne_slot dir file)).trans hfinds.hasFile.node
    obtain ⟨-, hplace, -⟩ := (hfinds.persists hkeep hlive).unique hafter
    exact .inl hplace.symm

/-! ## §2. What a success means. -/

/-- Rules that were applied: a backup, a plan for the text that was there, and
the planned text in the place of the artifact. -/
structure Applied (name : String) (rules : List Rule) (m : Machine) (dir : Location)
    (file : String) (bytes : ByteArray) (mode : Mode) (plan : Plan) (m₁ : Machine) (raw : Text)
    (text : ArtifactText) (m' : Machine) : Prop where
  backed : BackedUp m dir file bytes mode m₁
  decoded : Text.decode? bytes = some raw
  planned : ∃ plan₀, Plan.ofText name (.ofRaw raw) rules = .ok plan₀ ∧
    plan₀.outcomes = plan.outcomes ∧ plan₀.content = some text
  content : plan.content = some text
  writable : m₁.Writable dir file
  written : m₁.Replaced (dir ++ [file]) (Text.encode text.toRaw) mode m'

/-- **What applying rules does.**  A success is one on every disk on which looks
at the slot do not fail.  A failure is one of the store, or the plan for the text
that was there fell short; it leaves the artifact as it is, with or without a
backup. -/
theorem Finds.applied_ensures (h : s.Finds name m dir file bytes mode)
    (hsturdy : ¬frail (.stat (.ofLocation (dir ++ [slotName file])))) {rules : List Rule}
    {E : PatchError → Machine → Prop}
    (hstore : ∀ e m₁ n m', (∃ c, frail c) ∨ e.OfDisk ∨ Text.decode? bytes = none →
      m₁ = m ∨ BackedUp m dir file bytes mode m₁ → m₁.Aside (dir ++ [tempName n]) m' →
      E (.store e) m')
    (hshort : ∀ raw plan m₁, Text.decode? bytes = some raw →
      Plan.ofText name (.ofRaw raw) rules = .ok plan → plan.content = none →
      BackedUp m dir file bytes mode m₁ → E (.mismatch name plan.failures) m₁) :
    Attempt.Ensures frail (fun _ => True) (s.applyRules name rules)
      (fun plan m' => ∃ m₁ raw text,
        Applied name rules m dir file bytes mode plan m₁ raw text m') E m := by
  rw [applyRules_eq]
  refine Attempt.ensures_bind (Attempt.ensures_mapError
    ((BackedUp.of_backup h hsturdy ?_).mono ?_ fun _ _ he => he))
  · intro e n m' hfail haside
    exact hstore e m n m' (hfail.imp_right .inl) (.inl rfl) haside
  · intro o m₁ hbacked
    refine (hbacked.finds h).planAndWrite_ensures (fun _ _ _ => trivial) ?_ ?_ ?_ ?_
    · intro raw plan₀ text m' hdecode hplan hcontent hwritable hreplaced
      exact ⟨trivial, m₁, raw, text, hbacked, hdecode, ⟨plan₀, hplan, rfl, hcontent⟩, hcontent,
        hwritable, hreplaced⟩
    · intro raw plan hdecode hplan hnone
      exact hshort raw plan m₁ hdecode hplan hnone hbacked
    · -- a plan for a text is never refused
      intro raw e _ hrefused
      rw [Plan.ofText_eq] at hrefused
      cases hrefused
    · intro e n m' hfail hgivenUp
      exact hstore e m₁ n m' (hfail.imp_right (Or.imp_left And.left)) (.inr hbacked)
        hgivenUp.aside

/-- **What applying rules with success does**, where looks at the slot do not fail. -/
theorem Finds.applied_of_ends (h : s.Finds name m dir file bytes mode)
    (hsturdy : ¬frail (.stat (.ofLocation (dir ++ [slotName file])))) {rules : List Rule}
    {plan : Plan}
    (hends : Procedure.Ends frail (ExceptT.run (s.applyRules name rules)) m (.ok plan) m') :
    ∃ m₁ raw text, Applied name rules m dir file bytes mode plan m₁ raw text m' := by
  have hensures : Attempt.Ensures frail (fun _ => True) (s.applyRules name rules) _
      (fun _ _ => True) m :=
    h.applied_ensures hsturdy (fun _ _ _ _ _ _ _ => trivial) fun _ _ _ _ _ _ _ => trivial
  exact hensures.ends_ok hends

theorem applied_of_exec {rules : List Rule} {plan : Plan}
    (h : (s.applyRules name rules).exec m = (.ok plan, m')) :
    ∃ dir file bytes mode m₁ raw text, s.Finds name m dir file bytes mode ∧
      Applied name rules m dir file bytes mode plan m₁ raw text m' := by
  have hends := Attempt.ends_of_exec Call.Sturdy h
  obtain ⟨dir, file, bytes, mode, hfinds⟩ := finds_of_ends_ok hends
  obtain ⟨m₁, raw, text, happlied⟩ := hfinds.applied_of_ends id hends
  exact ⟨dir, file, bytes, mode, m₁, raw, text, hfinds, happlied⟩

section

variable {rules : List Rule} {plan : Plan} {raw : Text} {text : ArtifactText}

/-- After rules were applied, the artifact stands where it stood. -/
theorem Applied.finds (h : Applied name rules m dir file bytes mode plan m₁ raw text m')
    (hfinds : s.Finds name m dir file bytes mode) :
    s.Finds name m' dir file (Text.encode text.toRaw) mode :=
  (h.backed.finds hfinds).replaced h.written

/-- And it can be written again. -/
theorem Applied.writable_after (h : Applied name rules m dir file bytes mode plan m₁ raw text m')
    (hfinds : s.Finds name m dir file bytes mode) : m'.Writable dir file := by
  have hbefore := h.backed.finds hfinds
  refine (h.written.writable_iff (fun _ => hbefore.ne_temp) (fun mode' hdirectory => ?_) file).2
    h.writable
  rw [hbefore.hasFile.node] at hdirectory
  cases hdirectory

end

end Store

end ArtifactPatch
