/-
  ArtifactPatch.Proofs.Disk.Procedure
  ───────────────────────────────────
  **WHAT A PROCEDURE ENSURES.**

  `Machine.Responds` says how a machine may answer a call when the calls of a
  set `frail` can fail for reasons other than the tree.  A procedure then
  `Passes` through states, in each of which it may be stopped for good, and
  `Ends` in some.  `Ensures` gives a procedure its meaning as a program: the
  weakest condition under which an invariant holds in every state passed and a
  postcondition at every end.  Its rules follow the monad; with no frail call
  at all they speak about `run`.
-/
import ArtifactPatch.Disk.Procedure
import ArtifactPatch.Proofs.Except

namespace ArtifactPatch

variable {α β ε ε' : Type}

/-! ## §1. Runs. -/

namespace Procedure

theorem run_bind (p : Procedure α) (f : α → Procedure β) (m : Machine) :
    (p >>= f).run m = (f (p.run m).1).run (p.run m).2 := by
  induction p generalizing m with
  | done a => rfl
  | call c next ih => exact ih (m.perform c).1 (m.perform c).2

end Procedure

namespace Attempt

/-- Carry an attempt out: its result or failure, and the machine afterwards. -/
def exec (a : Attempt ε α) (m : Machine) : Except ε α × Machine :=
  Procedure.run (ExceptT.run a) m

theorem exec_mapError (f : ε → ε') (a : Attempt ε α) (m : Machine) :
    (mapError f a).exec m = ((a.exec m).1.mapError f, (a.exec m).2) :=
  Procedure.run_bind a.run _ m

theorem exec_bind (a : Attempt ε α) (f : α → Attempt ε β) (m : Machine) :
    (a >>= f).exec m = match a.exec m with
      | (.ok x, m') => (f x).exec m'
      | (.error e, m') => (.error e, m') := by
  refine (Procedure.run_bind a.run _ m).trans ?_
  unfold exec
  obtain ⟨r, m₁⟩ := Procedure.run (ExceptT.run a) m
  cases r with
  | ok x => rfl
  | error e => rfl

/-- A sequence succeeds when its parts do. -/
theorem exec_bind_eq_ok {a : Attempt ε α} {f : α → Attempt ε β} {m m' : Machine} {y : β} :
    (a >>= f).exec m = (.ok y, m')
      ↔ ∃ x m₁, a.exec m = (.ok x, m₁) ∧ (f x).exec m₁ = (.ok y, m') := by
  rw [exec_bind]
  constructor
  · intro h
    split at h
    next x m₁ hx => exact ⟨x, m₁, hx, h⟩
    next => cases h
  · rintro ⟨x, m₁, hx, h⟩
    rw [hx]
    exact h

theorem exec_mapError_eq_ok {f : ε → ε'} {a : Attempt ε α} {m m' : Machine} {x : α} :
    (mapError f a).exec m = (.ok x, m') ↔ a.exec m = (.ok x, m') := by
  rw [exec_mapError, Prod.mk.injEq, Except.mapError_eq_ok_iff, Prod.ext_iff]

theorem exec_of_isOk {a : Attempt ε α} {m : Machine} (h : (a.exec m).1.isOk = true) :
    ∃ x m', a.exec m = (.ok x, m') := by
  cases hexec : a.exec m with
  | mk r m' =>
      rw [hexec] at h
      cases r with
      | ok x => exact ⟨x, m', rfl⟩
      | error e => cases h

end Attempt

/-! ## §2. Machines with frail calls. -/

/-- What a call that fails may leave behind: the tree as it was or, of a write,
other bytes than it was given. -/
def Machine.Leaves (m : Machine) : Call → Machine → Prop
  | .write r _, m' => m' = m ∨ ∃ part, m' = (m.perform (.write r part)).2
  | _, m' => m' = m

/-- How a machine responds to a call: as the tree says or, where the call is
frail, by a failure of any kind. -/
inductive Machine.Responds (frail : Call → Prop) (m : Machine) :
    (c : Call) → Except OsError c.Answer → Machine → Prop
  | sound (c : Call) : Responds frail m c (m.perform c).1 (m.perform c).2
  | failed {c : Call} {m' : Machine} (e : OsError) (h : frail c) (hleaves : m.Leaves c m') :
      Responds frail m c (.error e) m'

/-- Calls that leave the tree alone. -/
def Call.Asks : Call → Prop
  | .stat _ | .canonicalize _ | .read _ | .sync _ | .touch _ | .list _ => True
  | .createTemp _ | .write .. | .setMode .. | .replace .. | .remove _ => False

theorem Call.Asks.perform_snd {c : Call} (h : c.Asks) (m : Machine) : (m.perform c).2 = m := by
  cases c with
  | createTemp | write | setMode | replace | remove => exact h.elim
  | _ => rfl

theorem Call.Asks.eq_of_leaves {c : Call} (h : c.Asks) {m m' : Machine} (hleft : m.Leaves c m') :
    m' = m := by
  cases c with
  | write => exact h.elim
  | _ => exact hleft

theorem Machine.Leaves.refl (m : Machine) (c : Call) : m.Leaves c m := by
  cases c with
  | write => exact .inl rfl
  | _ => exact rfl

theorem Machine.perform_createTemp_ok {m m' : Machine} {directory r : Route}
    (h : m.createTemp directory = .ok (r, m')) :
    m.perform (.createTemp directory) = (.ok r, m') := by
  rw [perform, h]

theorem Machine.perform_createTemp_error {m : Machine} {directory : Route} {e : OsError}
    (h : m.createTemp directory = .error e) :
    m.perform (.createTemp directory) = (.error e, m) := by
  rw [perform, h]

/-- A call that the tree refuses leaves it alone. -/
theorem Machine.perform_of_error {m : Machine} {c : Call} {e : OsError}
    (h : (m.perform c).1 = .error e) : (m.perform c).2 = m := by
  have hchanged (r : Except OsError Machine) (hr : (m.changed r).1 = .error e) :
      (m.changed r).2 = m := by
    cases r with
    | ok m' => cases hr
    | error e' => rfl
  cases c with
  | write | setMode | replace | remove => exact hchanged _ h
  | createTemp directory =>
      cases hr : m.createTemp directory with
      | ok p =>
          rw [perform_createTemp_ok hr] at h
          cases h
      | error e' => rw [perform_createTemp_error hr]
  | stat | canonicalize | read | sync | touch | list => rfl

/-- No call is frail. -/
def Call.Sturdy : Call → Prop :=
  fun _ => False

theorem Call.not_sturdy (h : ∃ c, Call.Sturdy c) : False := by
  obtain ⟨c, hc⟩ := h
  exact hc

namespace Procedure

/-- The states in which a procedure stands between two calls, or ends. -/
inductive Passes (frail : Call → Prop) : Procedure α → Machine → Machine → Prop
  | start (p : Procedure α) (m : Machine) : Passes frail p m m
  | call {c : Call} {next : Except OsError c.Answer → Procedure α}
      {answer : Except OsError c.Answer} {m m₁ m' : Machine}
      (h : m.Responds frail c answer m₁) (hrest : Passes frail (next answer) m₁ m') :
      Passes frail (.call c next) m m'

/-- The results of a procedure, with the states in which it ends. -/
inductive Ends (frail : Call → Prop) : Procedure α → Machine → α → Machine → Prop
  | done (a : α) (m : Machine) : Ends frail (.done a) m a m
  | call {c : Call} {next : Except OsError c.Answer → Procedure α}
      {answer : Except OsError c.Answer} {m m₁ m' : Machine} {a : α}
      (h : m.Responds frail c answer m₁) (hrest : Ends frail (next answer) m₁ a m') :
      Ends frail (.call c next) m a m'

theorem Ends.passes {frail : Call → Prop} {p : Procedure α} {m m' : Machine} {a : α}
    (h : p.Ends frail m a m') : p.Passes frail m m' := by
  induction h with
  | done a m => exact .start _ m
  | call h _ ih => exact .call h ih

/-- What follows a procedure goes on from one of its ends. -/
theorem Ends.bind {frail : Call → Prop} {p : Procedure α} {f : α → Procedure β}
    {m m₁ m' : Machine} {a : α} {b : β} (h : p.Ends frail m a m₁)
    (hrest : (f a).Ends frail m₁ b m') : (p >>= f).Ends frail m b m' := by
  induction h with
  | done a m => exact hrest
  | call hresp _ ih => exact .call hresp (ih hrest)

theorem Ends.bind_passes {frail : Call → Prop} {p : Procedure α} {f : α → Procedure β}
    {m m₁ m' : Machine} {a : α} (h : p.Ends frail m a m₁)
    (hrest : (f a).Passes frail m₁ m') : (p >>= f).Passes frail m m' := by
  induction h with
  | done a m => exact hrest
  | call hresp _ ih => exact .call hresp (ih hrest)

/-- A run is one of the ends. -/
theorem ends_run (frail : Call → Prop) (p : Procedure α) (m : Machine) :
    p.Ends frail m (p.run m).1 (p.run m).2 := by
  induction p generalizing m with
  | done a => exact .done a m
  | call c next ih => exact .call (.sound c) (ih (m.perform c).1 (m.perform c).2)

/-! ## §3. What is ensured. -/

/-- After every call `I` holds, and `Q` at every end. -/
def Ensures (frail : Call → Prop) (I : Machine → Prop) :
    Procedure α → (α → Machine → Prop) → Machine → Prop
  | .done a, Q, m => Q a m
  | .call c next, Q, m =>
      ∀ answer m', m.Responds frail c answer m' → I m' ∧ (next answer).Ensures frail I Q m'

variable {frail : Call → Prop} {I : Machine → Prop}

theorem Ensures.passes {p : Procedure α} {Q : α → Machine → Prop} {m m' : Machine}
    (h : p.Ensures frail I Q m) (hm : I m) (hp : p.Passes frail m m') : I m' := by
  induction hp with
  | start => exact hm
  | call hresp _ ih =>
      obtain ⟨hI, hnext⟩ := h _ _ hresp
      exact ih hnext hI

theorem Ensures.ends {p : Procedure α} {Q : α → Machine → Prop} {m m' : Machine} {a : α}
    (h : p.Ensures frail I Q m) (hp : p.Ends frail m a m') : Q a m' := by
  induction hp with
  | done => exact h
  | call hresp _ ih => exact ih (h _ _ hresp).2

theorem Ensures.run {p : Procedure α} {Q : α → Machine → Prop} {m : Machine}
    (h : p.Ensures frail I Q m) : Q (p.run m).1 (p.run m).2 :=
  h.ends (ends_run frail p m)

theorem Ensures.mono {p : Procedure α} {Q Q' : α → Machine → Prop} {m : Machine}
    (h : p.Ensures frail I Q m) (hQ : ∀ a m', Q a m' → Q' a m') : p.Ensures frail I Q' m := by
  induction p generalizing m with
  | done a => exact hQ a m h
  | call c next ih =>
      intro answer m' hresp
      obtain ⟨hI, hnext⟩ := h answer m' hresp
      exact ⟨hI, ih answer hnext⟩

/-- What holds at every end anyway. -/
theorem ensures_of_forall {p : Procedure α} {Q : α → Machine → Prop} (hI : ∀ m, I m)
    (hQ : ∀ a m, Q a m) (m : Machine) : p.Ensures frail I Q m := by
  induction p generalizing m with
  | done a => exact hQ a m
  | call c next ih => exact fun answer m' _ => ⟨hI m', ih answer m'⟩

theorem Ensures.bind {p : Procedure α} {f : α → Procedure β} {Q : β → Machine → Prop}
    {m : Machine} (h : p.Ensures frail I (fun a m' => (f a).Ensures frail I Q m') m) :
    (p >>= f).Ensures frail I Q m := by
  induction p generalizing m with
  | done a => exact h
  | call c next ih =>
      intro answer m' hresp
      obtain ⟨hI, hnext⟩ := h answer m' hresp
      exact ⟨hI, ih answer hnext⟩

/-- The rule of a call: what holds once it succeeds, and once it fails. -/
theorem ensures_ask {c : Call} {Q : Except OsError c.Answer → Machine → Prop} {m : Machine}
    (hok : ∀ a m', m.perform c = (.ok a, m') → I m' ∧ Q (.ok a) m')
    (herr : ∀ e m', frail c ∨ (m.perform c).1 = .error e → m.Leaves c m' →
      I m' ∧ Q (.error e) m') :
    (ask c).Ensures frail I Q m := by
  intro answer m' hresp
  cases hresp with
  | sound =>
      cases h : (m.perform c).1 with
      | ok a => exact hok a _ (Prod.ext h rfl)
      | error e =>
          rw [Machine.perform_of_error h]
          exact herr e m (.inr h) (.refl m c)
  | failed e hfrail hleaves => exact herr e m' (.inl hfrail) hleaves

/-- The rule of a call that leaves the tree alone. -/
theorem ensures_query {c : Call} {Q : Except OsError c.Answer → Machine → Prop} {m : Machine}
    (hc : c.Asks) (hm : I m) (hok : ∀ a, (m.perform c).1 = .ok a → Q (.ok a) m)
    (herr : ∀ e, frail c ∨ (m.perform c).1 = .error e → Q (.error e) m) :
    (ask c).Ensures frail I Q m := by
  refine ensures_ask ?_ ?_
  · intro a m' h
    have hsame := hc.perform_snd m
    rw [h] at hsame
    obtain rfl := hsame
    exact ⟨hm, hok a (by rw [h])⟩
  · intro e m' hfail hleft
    obtain rfl := hc.eq_of_leaves hleft
    exact ⟨hm, herr e hfail⟩

end Procedure

namespace Attempt

variable {frail : Call → Prop} {I : Machine → Prop}

/-- A run of an attempt is one of its ends. -/
theorem ends_of_exec (frail : Call → Prop) {a : Attempt ε α} {m m' : Machine} {r : Except ε α}
    (h : a.exec m = (r, m')) : Procedure.Ends frail (ExceptT.run a) m r m' := by
  have hends := Procedure.ends_run frail (ExceptT.run a) m
  unfold exec at h
  rwa [h] at hends

/-- What follows a success goes on from where it ended. -/
theorem ends_bind {frail : Call → Prop} {a : Attempt ε α} {f : α → Attempt ε β}
    {m m₁ m' : Machine} {x : α} {r : Except ε β}
    (h : Procedure.Ends frail (ExceptT.run a) m (.ok x) m₁)
    (hrest : Procedure.Ends frail (ExceptT.run (f x)) m₁ r m') :
    Procedure.Ends frail (ExceptT.run (a >>= f)) m r m' :=
  Procedure.Ends.bind h hrest

theorem passes_bind {frail : Call → Prop} {a : Attempt ε α} {f : α → Attempt ε β}
    {m m₁ m' : Machine} {x : α} (h : Procedure.Ends frail (ExceptT.run a) m (.ok x) m₁)
    (hrest : Procedure.Passes frail (ExceptT.run (f x)) m₁ m') :
    Procedure.Passes frail (ExceptT.run (a >>= f)) m m' :=
  Procedure.Ends.bind_passes h hrest

theorem ends_mapError {frail : Call → Prop} {f : ε → ε'} {a : Attempt ε α} {m m' : Machine}
    {r : Except ε α} (h : Procedure.Ends frail (ExceptT.run a) m r m') :
    Procedure.Ends frail (ExceptT.run (mapError f a)) m (r.mapError f) m' :=
  Procedure.Ends.bind h (.done _ m')

/-- What an attempt ensures: `Q` where it succeeds, `E` where it fails. -/
def Ensures (frail : Call → Prop) (I : Machine → Prop) (a : Attempt ε α)
    (Q : α → Machine → Prop) (E : ε → Machine → Prop) (m : Machine) : Prop :=
  Procedure.Ensures frail I (ExceptT.run a) (fun r m' => match r with
    | .ok x => Q x m'
    | .error e => E e m') m

theorem Ensures.ends_ok {a : Attempt ε α} {Q : α → Machine → Prop} {E : ε → Machine → Prop}
    {m m' : Machine} {x : α} (h : Ensures frail I a Q E m)
    (hends : Procedure.Ends frail (ExceptT.run a) m (.ok x) m') : Q x m' := by
  have hend := Procedure.Ensures.ends h hends
  exact hend

theorem Ensures.ends_error {a : Attempt ε α} {Q : α → Machine → Prop} {E : ε → Machine → Prop}
    {m m' : Machine} {e : ε} (h : Ensures frail I a Q E m)
    (hends : Procedure.Ends frail (ExceptT.run a) m (.error e) m') : E e m' := by
  have hend := Procedure.Ensures.ends h hends
  exact hend

/-- What holds at every end, with success or not. -/
theorem Ensures.ends_any {a : Attempt ε α} {P : Machine → Prop} {m m' : Machine}
    {r : Except ε α} (h : Ensures frail I a (fun _ => P) (fun _ => P) m)
    (hends : Procedure.Ends frail (ExceptT.run a) m r m') : P m' := by
  cases r with
  | ok x => exact h.ends_ok hends
  | error e => exact h.ends_error hends

theorem Ensures.exec_ok {a : Attempt ε α} {Q : α → Machine → Prop} {E : ε → Machine → Prop}
    {m m' : Machine} {x : α} (h : Ensures frail I a Q E m) (hx : a.exec m = (.ok x, m')) :
    Q x m' := by
  have hrun := Procedure.Ensures.run h
  unfold exec at hx
  rw [hx] at hrun
  exact hrun

theorem Ensures.exec_error {a : Attempt ε α} {Q : α → Machine → Prop} {E : ε → Machine → Prop}
    {m m' : Machine} {e : ε} (h : Ensures frail I a Q E m) (he : a.exec m = (.error e, m')) :
    E e m' := by
  have hrun := Procedure.Ensures.run h
  unfold exec at he
  rw [he] at hrun
  exact hrun

/-- An attempt that cannot fail succeeds. -/
theorem Ensures.exec_succeeds {a : Attempt ε α} {Q : α → Machine → Prop} {m : Machine}
    (h : Ensures frail I a Q (fun _ _ => False) m) : ∃ x m', a.exec m = (.ok x, m') ∧ Q x m' := by
  cases hexec : a.exec m with
  | mk r m' =>
      cases r with
      | ok x => exact ⟨x, m', rfl, h.exec_ok hexec⟩
      | error e => exact (h.exec_error hexec).elim

/-- What holds whether it succeeds or fails. -/
theorem ensures_of_forall {a : Attempt ε α} {Q : α → Machine → Prop} {E : ε → Machine → Prop}
    (hI : ∀ m, I m) (hQ : ∀ x m, Q x m) (hE : ∀ e m, E e m) (m : Machine) :
    Ensures frail I a Q E m := by
  refine Procedure.ensures_of_forall hI ?_ m
  intro r m'
  cases r with
  | ok x => exact hQ x m'
  | error e => exact hE e m'

theorem Ensures.mono {a : Attempt ε α} {Q Q' : α → Machine → Prop} {E E' : ε → Machine → Prop}
    {m : Machine} (h : Ensures frail I a Q E m) (hQ : ∀ x m', Q x m' → Q' x m')
    (hE : ∀ e m', E e m' → E' e m') : Ensures frail I a Q' E' m := by
  refine Procedure.Ensures.mono h ?_
  intro r m' hr
  cases r with
  | ok x => exact hQ x m' hr
  | error e => exact hE e m' hr

theorem ensures_pure {x : α} {Q : α → Machine → Prop} {E : ε → Machine → Prop} {m : Machine}
    (h : Q x m) : Ensures frail I (pure x : Attempt ε α) Q E m := h

theorem ensures_ofExcept {r : Except ε α} {Q : α → Machine → Prop} {E : ε → Machine → Prop}
    {m : Machine} (hok : ∀ x, r = .ok x → Q x m) (herr : ∀ e, r = .error e → E e m) :
    Ensures frail I (ofExcept r) Q E m := by
  cases r with
  | ok x => exact hok x rfl
  | error e => exact herr e rfl

theorem ensures_bind {a : Attempt ε α} {f : α → Attempt ε β} {Q : β → Machine → Prop}
    {E : ε → Machine → Prop} {m : Machine}
    (h : Ensures frail I a (fun x m' => Ensures frail I (f x) Q E m') E m) :
    Ensures frail I (a >>= f) Q E m := by
  refine Procedure.Ensures.bind (Procedure.Ensures.mono h ?_)
  intro r m' hr
  cases r with
  | ok x => exact hr
  | error e => exact hr

theorem ensures_mapError {f : ε → ε'} {a : Attempt ε α} {Q : α → Machine → Prop}
    {E : ε' → Machine → Prop} {m : Machine}
    (h : Ensures frail I a Q (fun e => E (f e)) m) : Ensures frail I (mapError f a) Q E m := by
  refine Procedure.Ensures.bind (Procedure.Ensures.mono h ?_)
  intro r m' hr
  cases r with
  | ok x => exact hr
  | error e => exact hr

theorem ensures_lift {p : Procedure α} {Q : α → Machine → Prop} {E : ε → Machine → Prop}
    {m : Machine} (h : p.Ensures frail I Q m) : Ensures frail I (lift p : Attempt ε α) Q E m :=
  Procedure.Ensures.bind (h.mono fun _ _ hQ => hQ)

/-- An attempt whose failure is looked at. -/
theorem ensures_lift_run {a : Attempt ε α} {Q : Except ε α → Machine → Prop}
    {E : ε' → Machine → Prop} {m : Machine}
    (h : Ensures frail I a (fun x => Q (.ok x)) (fun e => Q (.error e)) m) :
    Ensures frail I (lift (ExceptT.run a) : Attempt ε' (Except ε α)) Q E m := by
  refine ensures_lift (Procedure.Ensures.mono h ?_)
  intro r m' hr
  cases r with
  | ok x => exact hr
  | error e => exact hr

theorem ensures_call {c : Call} {f : OsError → ε} {Q : c.Answer → Machine → Prop}
    {E : ε → Machine → Prop} {m : Machine}
    (hok : ∀ a m', m.perform c = (.ok a, m') → I m' ∧ Q a m')
    (herr : ∀ e m', frail c ∨ (m.perform c).1 = .error e → m.Leaves c m' → I m' ∧ E (f e) m') :
    Ensures frail I (call c f) Q E m :=
  Procedure.Ensures.bind (Procedure.ensures_ask hok herr)

theorem ensures_query {c : Call} {f : OsError → ε} {Q : c.Answer → Machine → Prop}
    {E : ε → Machine → Prop} {m : Machine} (hc : c.Asks) (hm : I m)
    (hok : ∀ a, (m.perform c).1 = .ok a → Q a m)
    (herr : ∀ e, frail c ∨ (m.perform c).1 = .error e → E (f e) m) :
    Ensures frail I (call c f) Q E m :=
  Procedure.Ensures.bind (Procedure.ensures_query hc hm hok herr)

/-- A question whose answer is known. -/
theorem ensures_query_of_ok {c : Call} {f : OsError → ε} {Q : c.Answer → Machine → Prop}
    {E : ε → Machine → Prop} {m : Machine} {a : c.Answer} (hc : c.Asks) (hm : I m)
    (ha : (m.perform c).1 = .ok a) (hok : Q a m) (herr : frail c → ∀ e, E (f e) m) :
    Ensures frail I (call c f) Q E m := by
  refine ensures_query hc hm ?_ ?_
  · intro a' ha'
    rw [ha] at ha'
    obtain rfl := Except.ok.inj ha'
    exact hok
  · intro e hfail
    rcases hfail with hfrail | herror
    · exact herr hfrail e
    · rw [ha] at herror
      cases herror

end Attempt

/-! ## §4. Questions that do not fail. -/

namespace Disk

variable {frail : Call → Prop} {I : Machine → Prop}

theorem isFile_ensures {r : Route} {Q : Bool → Machine → Prop} {m : Machine} (hm : I m)
    (hyes : ∀ mode, m.stat r = .ok ⟨.file, mode⟩ → Q true m)
    (hno : frail (.stat r) ∨ (∀ mode, m.stat r ≠ .ok ⟨.file, mode⟩) → Q false m) :
    (isFile r).Ensures frail I Q m := by
  refine Procedure.Ensures.bind (Procedure.ensures_query trivial hm ?_ ?_)
  · intro st hst
    obtain ⟨kind, mode⟩ := st
    by_cases hkind : kind = .file
    · subst hkind
      exact hyes mode hst
    · have hother : decide (kind = .file) = false := decide_eq_false hkind
      show Q (decide (kind = .file)) m
      rw [hother]
      refine hno (.inr fun mode' hst' => hkind ?_)
      rw [show m.stat r = .ok ⟨kind, mode⟩ from hst] at hst'
      cases hst'
      rfl
  · intro e hfail
    refine hno (hfail.imp_right fun herror mode hst => ?_)
    rw [show m.stat r = .error e from herror] at hst
    cases hst

theorem exists?_ensures {r : Route} {Q : Bool → Machine → Prop} {m : Machine} (hm : I m)
    (hyes : ∀ st, m.stat r = .ok st → Q true m)
    (hno : frail (.stat r) ∨ (∀ st, m.stat r ≠ .ok st) → Q false m) :
    (exists? r).Ensures frail I Q m := by
  refine Procedure.Ensures.bind (Procedure.ensures_query trivial hm ?_ ?_)
  · intro st hst
    exact hyes st hst
  · intro e hfail
    refine hno (hfail.imp_right fun herror st hst => ?_)
    rw [show m.stat r = .error e from herror] at hst
    cases hst

end Disk

end ArtifactPatch
