import LiveQuery.Proofs.Registry.Watching
import Mathlib.Data.List.Destutter

/-!
# The transitions that a watcher acts on

Of the values that a host sends the task of a watcher takes in some: whatever is sent while the task
is busy or waits for its turn comes to the latest value. Of those that it takes in, it acts on the
ones that differ from the value before them, and on nothing else (`UpTo.minds`).

A task that is told to end while there is a change to see does the one or the other first, and
nothing says which. `Watched.step` lets it end; here it may also see the change (`Choice`).
-/

namespace LiveQuery

theorem Call.ofVisibility_injective : Function.Injective Call.ofVisibility := by
  intro u v h
  cases u <;> cases v <;> first | rfl | cases h

namespace Watched

/-- The task sees a change of its channel, told to end or not. -/
def heed (s : Watched) : Watched :=
  let looked := look { s with watcher := { s.watcher with cancelled := false } }
  { looked with watcher := { looked.watcher with cancelled := s.watcher.cancelled } }

/-- What happens in one piece, where a task that is told to end may yet see a change first. -/
inductive Choice where
  | step (e : Step)
  | change

/-- What a choice makes of a watched world. -/
def choose (c : Choice) (s : Watched) : Watched :=
  match c with
  | .step e => s.step e
  | .change => if s.isIdle = true ∧ s.watcher.seen < s.watcher.sent then s.heed else s

/-- The watched world after a list of choices. -/
def course : List Choice → Watched → Watched
  | [], s => s
  | c :: cs, s => course cs (s.choose c)

/-- The runs of `Watched.step` are courses. -/
theorem course_map_step (es : List Step) (s : Watched) : s.course (es.map .step) = s.run es := by
  induction es generalizing s with
  | nil => rfl
  | cons e es ih => exact ih (s.step e)

/-- The value that the task takes in on the way from one state to the next. -/
def taken? (s t : Watched) : Option Visibility :=
  if s.watcher.seen < t.watcher.seen then some t.watcher.value else none

/-- The call that the task begins on the way from one state to the next. -/
def action? (s t : Watched) : Option Call :=
  if t.call = s.call then none else t.call.bind fun k => t.world.calls[k]?.map Ongoing.call

/-- The values that the task takes in, in their order. -/
def taken : List Choice → Watched → List Visibility
  | [], _ => []
  | c :: cs, s => (taken? s (s.choose c)).toList ++ taken cs (s.choose c)

/-- The calls that the task begins, in their order. -/
def actions : List Choice → Watched → List Call
  | [], _ => []
  | c :: cs, s => (action? s (s.choose c)).toList ++ actions cs (s.choose c)

/-! ## What a choice can do -/

/-- What a choice can do once the task has begun. -/
inductive Goes (s : Watched) (c : Choice) : Watched → Prop
  | stay : s.Goes c s
  | world (e : World.Step) : s.Goes c { s with world := s.world.step e }
  | send (v : Visibility) (htask : s.watcher.task ≠ .ended) :
      s.Goes c { s with watcher := { s.watcher with value := v, sent := s.watcher.sent + 1 } }
  | close : s.Goes c { s with watcher := s.watcher.close }
  | cancel : s.Goes c { s with watcher := s.watcher.cancel }
  | done (h : c = .step .abort ∨ s.watcher.cancelled = true ∨
        s.watcher.closed = true ∧ ¬s.watcher.seen < s.watcher.sent) :
      s.Goes c { s with watcher := { s.watcher with task := .ended } }
  | same (hseen : s.watcher.seen < s.watcher.sent)
      (htask : s.watcher.task = .watching s.watcher.value) :
      s.Goes c { s with watcher := { s.watcher with seen := s.watcher.sent } }
  | act (u : Visibility) (hseen : s.watcher.seen < s.watcher.sent)
      (htask : s.watcher.task = .watching u) (hne : s.watcher.value ≠ u) :
      s.Goes c
        { world := s.world.step (.call (.ofVisibility s.watcher.value))
          watcher := { s.watcher with seen := s.watcher.sent, task := .watching s.watcher.value }
          call := some s.world.calls.length }

/-- A change that is seen is acted on exactly if the value differs from the one before it. -/
theorem goes_heed {s : Watched} (c : Choice) (hseen : s.watcher.seen < s.watcher.sent) :
    s.Goes c s.heed := by
  cases htask : s.watcher.task with
  | spawned | ended =>
    have hheed : s.heed = s := by
      obtain ⟨world, ⟨value, sent, seen, closed, cancelled, task⟩, call⟩ := s
      cases htask
      rfl
    rw [hheed]
    exact .stay
  | watching u =>
    by_cases hv : s.watcher.value = u
    · have hheed : s.heed = { s with watcher := { s.watcher with seen := s.watcher.sent } } := by
        simp [heed, look, Watcher.acts?, Watcher.observe, htask, hseen, hv]
      rw [hheed]
      exact .same hseen (hv ▸ htask)
    · have hheed : s.heed =
          { world := s.world.step (.call (.ofVisibility s.watcher.value))
            watcher :=
              { s.watcher with seen := s.watcher.sent, task := .watching s.watcher.value }
            call := some s.world.calls.length } := by
        simp [heed, look, Watcher.acts?, Watcher.observe, htask, hseen, hv]
      rw [hheed]
      exact .act u hseen htask hv

/-- A look ends the task, or sees a change, or does nothing. -/
theorem goes_look (s : Watched) (c : Choice) : s.Goes c s.look := by
  cases htask : s.watcher.task with
  | spawned | ended =>
    simp only [look, Watcher.acts?, Watcher.observe, htask]
    exact .stay
  | watching u =>
    cases hcancelled : s.watcher.cancelled with
    | true =>
      have hlook : s.look = { s with watcher := { s.watcher with task := .ended } } := by
        simp [look, Watcher.acts?, Watcher.observe, htask, hcancelled]
      rw [hlook]
      exact .done (.inr (.inl hcancelled))
    | false =>
      by_cases hseen : s.watcher.seen < s.watcher.sent
      · have hlook : s.look = s.heed := by
          obtain ⟨world, ⟨value, sent, seen, closed, cancelled, task⟩, call⟩ := s
          cases hcancelled
          cases htask
          by_cases hv : value = u <;> simp_all [heed, look, Watcher.acts?, Watcher.observe]
        rw [hlook]
        exact goes_heed c hseen
      · cases hclosed : s.watcher.closed with
        | true =>
          have hlook : s.look = { s with watcher := { s.watcher with task := .ended } } := by
            simp [look, Watcher.acts?, Watcher.observe, htask, hcancelled, hseen, hclosed]
          rw [hlook]
          exact .done (.inr (.inr ⟨hclosed, hseen⟩))
        | false =>
          have hlook : s.look = s := by
            simp [look, Watcher.acts?, Watcher.observe, htask, hcancelled, hseen, hclosed]
          rw [hlook]
          exact .stay

theorem goes_choose {s : Watched} (hbegun : s.watcher.task ≠ .spawned) (c : Choice) :
    s.Goes c (s.choose c) := by
  cases c with
  | change =>
    simp only [choose]
    split
    case isTrue h => exact goes_heed _ h.2
    case isFalse => exact .stay
  | step e =>
    cases e with
    | world e => exact .world e
    | send v =>
      by_cases hdone : s.watcher.task = .ended
      · have hsend : s.choose (.step (.send v)) = s := by
          simp [choose, step, Watcher.send, Watcher.isDone, hdone]
        rw [hsend]
        exact .stay
      · have hsend : s.choose (.step (.send v)) =
            { s with watcher := { s.watcher with value := v, sent := s.watcher.sent + 1 } } := by
          simp [choose, step, Watcher.send, Watcher.isDone, hdone]
        rw [hsend]
        exact .send v hdone
    | close => exact .close
    | cancel => exact .cancel
    | abort => exact .done (.inl rfl)
    | begin_ =>
      have hbegin : s.watcher.begin_.1 = s.watcher := by simp only [Watcher.begin_]
      rw [choose, step, hbegin]
      exact .stay
    | observe =>
      simp only [choose, step]
      split
      case isTrue => exact s.goes_look _
      case isFalse => exact .stay

/-! ## What has been taken in -/

/-- The task has begun, and the value that it has taken in last is the given one. -/
structure UpTo (v : Visibility) (s : Watched) : Prop where
  begun : s.watcher.task ≠ .spawned
  seen_le : s.watcher.seen ≤ s.watcher.sent
  watching : ∀ u, s.watcher.task = .watching u → u = v
  latest : s.watcher.seen = s.watcher.sent → s.watcher.value = v
  placed : ∀ k, s.call = some k → ∃ c, s.world.calls[k]? = some c

/-- On the way from one state to the next nothing is taken in, or the same value once more, or
another one. Only then a call is begun, and it is the one for that value. -/
inductive Minds (v : Visibility) (s t : Watched) : Prop
  | quiet (htaken : taken? s t = none) (haction : action? s t = none) (h : t.UpTo v)
  | same (htaken : taken? s t = some v) (haction : action? s t = none) (h : t.UpTo v)
  | act (u : Visibility) (hne : u ≠ v) (htaken : taken? s t = some u)
      (haction : action? s t = some (.ofVisibility u)) (h : t.UpTo u)

/-- Where nothing is seen and nothing begun, the value taken in last stays. -/
theorem UpTo.minds_of_quiet {v : Visibility} {s t : Watched} (h : t.UpTo v)
    (hseen : t.watcher.seen = s.watcher.seen) (hcall : t.call = s.call) : Minds v s t :=
  .quiet (by simp [taken?, hseen]) (by simp [action?, hcall]) h

theorem UpTo.minds {v : Visibility} {s t : Watched} {c : Choice} (h : s.UpTo v)
    (hg : s.Goes c t) : Minds v s t := by
  cases hg with
  | stay => exact h.minds_of_quiet rfl rfl
  | world e =>
    refine minds_of_quiet ⟨h.begun, h.seen_le, h.watching, h.latest, ?_⟩ rfl rfl
    intro k hk
    obtain ⟨c, hc⟩ := h.placed k hk
    obtain ⟨todo, hc'⟩ := World.getElem?_calls_step hc e
    exact ⟨_, hc'⟩
  | send u =>
    refine minds_of_quiet ⟨h.begun, Nat.le_succ_of_le h.seen_le, h.watching, ?_, h.placed⟩ rfl rfl
    -- A value that has just been sent cannot have been seen.
    intro hseen
    exact absurd h.seen_le (Nat.not_le_of_lt (Nat.lt_of_succ_le hseen.ge))
  | close | cancel =>
    exact minds_of_quiet ⟨h.begun, h.seen_le, h.watching, h.latest, h.placed⟩ rfl rfl
  | done => exact minds_of_quiet ⟨by simp, h.seen_le, by simp, h.latest, h.placed⟩ rfl rfl
  | same hseen htask =>
    have hv : s.watcher.value = v := h.watching _ htask
    refine .same ?_ (by simp [action?]) ⟨h.begun, Nat.le_refl _, h.watching, fun _ => hv, h.placed⟩
    simp [taken?, hseen, hv]
  | act u hseen htask hne =>
    have hu : u = v := h.watching u htask
    -- The call that begins is not the one before it, which has its place already.
    have hcall : s.call ≠ some s.world.calls.length := by
      intro hk
      obtain ⟨c, hc⟩ := h.placed _ hk
      simp at hc
    refine .act s.watcher.value (hu ▸ hne) ?_ ?_
      ⟨by simp, Nat.le_refl _, by simp, fun _ => rfl, ?_⟩
    · simp [taken?, hseen]
    · simp [action?, hcall.symm, World.step]
    · rintro k ⟨⟩
      simp [World.step]

theorem UpTo.choose {v : Visibility} {s : Watched} (h : s.UpTo v) (c : Choice) :
    Minds v s (s.choose c) :=
  h.minds (goes_choose h.begun c)

/-- What a run takes in, what it does about it, and what has been taken in last at its end. -/
theorem UpTo.course {v : Visibility} {s : Watched} (h : s.UpTo v) (cs : List Choice) :
    (s.course cs).UpTo ((s.taken cs).getLastD v) ∧
    (s.actions cs).getLastD (.ofVisibility v) = .ofVisibility ((s.taken cs).getLastD v) ∧
    .ofVisibility v :: s.actions cs =
      ((v :: s.taken cs).destutter (· ≠ ·)).map Call.ofVisibility := by
  -- From the front: what `destutter` keeps next depends on the value it has kept last.
  induction cs generalizing v s with
  | nil => exact ⟨h, rfl, rfl⟩
  | cons c cs ih =>
    rw [Watched.course, actions, taken]
    cases h.choose c with
    | quiet htaken haction hv =>
      rw [htaken, haction]
      exact ih hv
    | same htaken haction hv =>
      rw [htaken, haction, Option.toList_some, List.singleton_append, List.getLastD_cons,
        List.destutter_cons_cons, if_neg (not_not_intro rfl)]
      exact ih hv
    | act u hne htaken haction hu =>
      obtain ⟨hupTo, hlast, hactions⟩ := ih hu
      rw [htaken, haction]
      simp only [Option.toList_some, List.singleton_append, List.getLastD_cons]
      refine ⟨hupTo, hlast, ?_⟩
      rw [List.destutter_cons_cons, if_pos hne.symm, List.map_cons, ← List.destutter_cons',
        ← hactions]

/-! ## How the task ends -/

/-- If the task has ended and was not told to, it has seen everything and nothing more comes. -/
def EndsDry (s : Watched) : Prop :=
  s.watcher.task = .ended → s.watcher.cancelled = false →
    s.watcher.closed = true ∧ s.watcher.seen = s.watcher.sent

theorem EndsDry.choose {v : Visibility} {s : Watched} (h : s.EndsDry) (hv : s.UpTo v) {c : Choice}
    (hc : c ≠ .step .abort) : (s.choose c).EndsDry := by
  have hg := goes_choose hv.begun c
  generalize s.choose c = t at hg
  intro hended hcancelled
  cases hg with
  | stay | world => exact h hended hcancelled
  | send u htask => exact absurd hended htask
  | close => exact ⟨rfl, (h hended hcancelled).2⟩
  | cancel => cases hcancelled
  | done hwhy =>
    rcases hwhy with rfl | htold | ⟨hclosed, hseen⟩
    · exact absurd rfl hc
    · exact absurd (htold.symm.trans hcancelled) (by decide)
    · exact ⟨hclosed, Nat.le_antisymm hv.seen_le (Nat.le_of_not_lt hseen)⟩
  | same _ htask => exact absurd (htask.symm.trans hended) (by simp)
  | act => cases hended

theorem EndsDry.course {v : Visibility} {s : Watched} (h : s.EndsDry) (hv : s.UpTo v)
    {cs : List Choice} (hcs : .step .abort ∉ cs) : (s.course cs).EndsDry := by
  induction cs generalizing v s with
  | nil => exact h
  | cons c cs ih =>
    rw [List.mem_cons, not_or] at hcs
    have hstep := h.choose hv (Ne.symm hcs.1)
    cases hv.choose c with
    | quiet _ _ hu | same _ _ hu | act _ _ _ _ hu => exact ih hstep hu hcs.2

/-- A look of a task that has time and is not told to end leaves nothing unseen. -/
theorem UpTo.seen_observe {v : Visibility} {s : Watched} (h : s.UpTo v)
    (hgoing : s.watcher.task ≠ .ended) (hcancelled : s.watcher.cancelled = false)
    (hidle : s.isIdle = true) :
    (s.choose (.step .observe)).watcher.seen = s.watcher.sent := by
  have hlook : s.choose (.step .observe) = s.look := by
    rw [Watched.choose, Watched.step, if_pos hidle]
  rw [hlook]
  cases htask : s.watcher.task with
  | spawned => exact absurd htask h.begun
  | ended => exact absurd htask hgoing
  | watching u =>
    by_cases hseen : s.watcher.seen < s.watcher.sent
    · by_cases hv : s.watcher.value = u <;>
        simp [look, Watcher.acts?, Watcher.observe, htask, hcancelled, hseen, hv]
    · have hall : s.watcher.seen = s.watcher.sent :=
        Nat.le_antisymm h.seen_le (Nat.le_of_not_lt hseen)
      cases hclosed : s.watcher.closed <;>
        simp [look, Watcher.acts?, Watcher.observe, htask, hcancelled, hclosed, hall]

/-! ## Before the first turn -/

theorem spawned_of_choose {s : Watched} {c : Choice} (h : (s.choose c).watcher.task = .spawned) :
    s.watcher.task = .spawned ∧ (s.choose c).call = s.call := by
  cases c with
  | step e => exact spawned_of_step h
  | change =>
    simp only [choose] at h ⊢
    split at h
    case isFalse hno => exact ⟨h, by rw [if_neg hno]⟩
    case isTrue hyes =>
      rw [if_pos hyes]
      have hg := goes_heed .change hyes.2
      generalize s.heed = t at h hg
      cases hg with
      | stay | world | send | close | cancel => exact ⟨h, rfl⟩
      | same _ htask => exact absurd (htask.symm.trans h) (by simp)
      | done | act => cases h

theorem spawned_of_course {cs : List Choice} {s : Watched}
    (h : (s.course cs).watcher.task = .spawned) :
    s.watcher.task = .spawned ∧ (s.course cs).call = s.call := by
  induction cs generalizing s with
  | nil => exact ⟨h, rfl⟩
  | cons c cs ih =>
    obtain ⟨hspawned, hcall⟩ := ih h
    obtain ⟨hbefore, hsame⟩ := spawned_of_choose hspawned
    exact ⟨hbefore, hcall.trans hsame⟩

/-- When a watcher has had its first turn, it has taken in the value that it has read. -/
theorem upTo_begin {s : Watched} (hspawned : s.watcher.task = .spawned) (hcall : s.call = none) :
    (s.choose (.step .begin_)).UpTo (s.choose (.step .begin_)).watcher.value := by
  refine ⟨?_, ?_, ?_, ?_, ?_⟩ <;> simp [choose, step, Watcher.begin_, hspawned, hcall]

/-! ## Transitions -/

/-- Whatever else is under way, whenever the host sends what, and whichever of two things that are
ready a task sees to first: from the value that it reads in its first turn the actions of a watcher
pause and resume by turns, for they are the transitions in the values that it takes in; the last
action is the one for the value that it has taken in last, and that value is the latest of the
channel once the watcher has seen all there is, as it has after each look for which it has time. So
has a task that has ended and was not told to. -/
theorem acts_on_transitions {w : World} {v : Visibility} {before : List Choice}
    (hspawned : ((start w v).course before).watcher.task = .spawned) (later : List Choice) :
    let begun := ((start w v).course before).choose (.step .begin_)
    let baseline := begun.watcher.value
    let taken := begun.taken later
    let actions := begun.actions later
    let watcher := (begun.course later).watcher
    (∀ c ∈ actions, c = .pauseAll ∨ c = .resumeAll) ∧
    (Call.ofVisibility baseline :: actions).IsChain (· ≠ ·) ∧
    Call.ofVisibility baseline :: actions =
      ((baseline :: taken).destutter (· ≠ ·)).map Call.ofVisibility ∧
    actions.getLastD (.ofVisibility baseline) = .ofVisibility (taken.getLastD baseline) ∧
    (watcher.seen = watcher.sent → taken.getLastD baseline = watcher.value) ∧
    (watcher.task ≠ .ended → watcher.cancelled = false → (begun.course later).isIdle = true →
      ((begun.course later).choose (.step .observe)).watcher.seen = watcher.sent) ∧
    (.step .abort ∉ later → watcher.task = .ended → watcher.cancelled = false →
      watcher.closed = true ∧ watcher.seen = watcher.sent ∧
        taken.getLastD baseline = watcher.value) := by
  intro begun baseline taken actions watcher
  have hupTo : begun.UpTo baseline := upTo_begin hspawned (spawned_of_course hspawned).2
  obtain ⟨hdone, hlast, hactions⟩ := hupTo.course later
  have hlatest : watcher.seen = watcher.sent → taken.getLastD baseline = watcher.value :=
    fun hseen => (hdone.latest hseen).symm
  refine ⟨?_, ?_, hactions, hlast, hlatest, hdone.seen_observe, ?_⟩
  · intro c hc
    have hmem : c ∈ Call.ofVisibility baseline :: actions := List.mem_cons_of_mem _ hc
    rw [hactions] at hmem
    obtain ⟨u, -, rfl⟩ := List.mem_map.mp hmem
    cases u
    · exact .inr rfl
    · exact .inl rfl
  · rw [hactions]
    exact List.isChain_map_of_isChain _ (fun _ _ hne => Call.ofVisibility_injective.ne hne)
      (List.isChain_destutter _ _)
  · intro habort hended hcancelled
    have hdry : begun.EndsDry := by
      intro hended
      simp [begun, choose, step, Watcher.begin_, hspawned] at hended
    obtain ⟨hclosed, hseen⟩ := hdry.course hupTo habort hended hcancelled
    exact ⟨hclosed, hseen, hlatest hseen⟩

/-- A watcher of an empty register that has had its first turn. -/
def watching : Watched := ((start (.start default) .visible).course []).choose (.step .begin_)

/-- The host is hidden, says so again, is visible and goes. -/
def hiddenTwice : List Choice :=
  [.step (.send .hidden), .change, .step (.world (.part 0)), .step (.send .hidden), .change,
    .step (.send .visible), .step .close, .change, .step (.world (.part 1)), .step .observe]

/-- The watcher takes in three values, pauses and resumes the queries, and ends. -/
theorem acts_on_transitions_hidden_twice :
    watching.taken hiddenTwice = [.hidden, .hidden, .visible] ∧
    watching.actions hiddenTwice = [.pauseAll, .resumeAll] ∧
    (watching.course hiddenTwice).watcher.task = .ended ∧
    (watching.course hiddenTwice).watcher.value = .visible := by
  have htaken : watching.taken hiddenTwice = [.hidden, .hidden, .visible] := by decide +kernel
  have hended : (watching.course hiddenTwice).watcher.task = .ended := by decide +kernel
  have hcancelled : (watching.course hiddenTwice).watcher.cancelled = false := by decide +kernel
  have hall := @acts_on_transitions (.start default) .visible [] rfl hiddenTwice
  rw [← watching] at hall
  obtain ⟨-, -, hactions, -, -, -, hvalue⟩ := hall
  obtain ⟨-, -, hlast⟩ := hvalue (by simp [hiddenTwice]) hended hcancelled
  rw [htaken] at hactions hlast
  exact ⟨htaken, (List.cons.inj hactions).2, hended, hlast.symm⟩

end Watched
end LiveQuery
