import LiveQuery.Proofs.Registry.Alone
import LiveQuery.Proofs.Registry.Disposal
import LiveQuery.Registry.Watcher

/-!
# Watchers in a world

A watcher is a task beside the calls of a world. What it does to the register it does by a call of
its own, and while that call is under way anything else may happen, to the channel as well; only the
next look of the watcher comes after the end of its call. `exists_turn` says that a turn of the task
that is left alone is such steps.

The watcher sees the latest value only, and acts where that differs from the last value it has seen.
So its last action is always the one for the value it has seen last (`Follows`), the baseline apart:
on that it does not act, and the baseline is what it reads in its first turn.
-/

namespace LiveQuery

/-- The call that acts on a visibility. -/
def Call.ofVisibility : Visibility → Call
  | .hidden => .pauseAll
  | .visible => .resumeAll

theorem Registry.finishes_apply (v : Visibility) (r : Registry) :
    Finishes ((Call.ofVisibility v).parts r) r (r.apply v).1 := by
  cases v with
  | hidden => exact finishes_pauseAll r
  | visible => exact finishes_resumeAll r

namespace Watcher

/-- The visibility that a look of the watcher acts on, if it acts. -/
def acts? (w : Watcher) : Option Visibility :=
  match w.task with
  | .watching current =>
    if w.cancelled = false ∧ w.seen < w.sent ∧ w.value ≠ current then some w.value else none
  | _ => none

/-- A look does to the registry what its action does. -/
theorem registry_observe (w : Watcher) (r : Registry) :
    (w.observe r).2.1 =
      match w.acts? with
      | none => r
      | some v => (r.apply v).1 := by
  simp only [observe, acts?]
  cases w.task with
  | spawned | ended => rfl
  | watching current =>
    cases hc : w.cancelled with
    | true => rfl
    | false =>
      by_cases hs : w.seen < w.sent
      · by_cases hv : w.value = current
        · simp [hs, hv]
        · simp [hs, hv]
      · simp only [hs, false_and, and_false, if_false, Bool.false_eq_true]
        split <;> rfl

/-- What a look can do: it ends the task, or sees nothing new, or sees the latest value; and it acts
exactly if that differs from the value seen before. -/
theorem observe_cases (w : Watcher) (r : Registry) :
    (w.acts? = none ∧
      ((w.observe r).1 = { w with task := .ended } ∨ (w.observe r).1 = w ∨
        w.task = .watching w.value ∧ (w.observe r).1 = { w with seen := w.sent })) ∨
    (w.acts? = some w.value ∧
      (w.observe r).1 = { w with seen := w.sent, task := .watching w.value }) := by
  simp only [observe, acts?]
  cases ht : w.task with
  | spawned | ended => exact .inl ⟨rfl, .inr (.inl rfl)⟩
  | watching current =>
    cases hc : w.cancelled with
    | true => exact .inl ⟨rfl, .inl rfl⟩
    | false =>
      by_cases hs : w.seen < w.sent
      · by_cases hv : w.value = current
        · subst hv
          refine .inl ⟨by simp, .inr (.inr ⟨rfl, ?_⟩)⟩
          simp [hs, ← ht]
        · refine .inr ⟨by simp [hs, hv], ?_⟩
          simp [hs, hv]
      · refine .inl ⟨by simp [hs], ?_⟩
        cases hcl : w.closed with
        | true => exact .inl (by simp [hs])
        | false => exact .inr (.inl (by simp [hs]))

end Watcher

/-- A call that is under way is what it was begun as. -/
theorem World.getElem?_calls_step {w : World} {k : Nat} {c : Ongoing} (hc : w.calls[k]? = some c)
    (s : World.Step) : ∃ todo, (w.step s).calls[k]? = some ⟨c.call, todo⟩ := by
  by_cases hs : s = .part k
  · subst hs
    obtain ⟨call, todo⟩ := c
    cases todo with
    | nil => exact ⟨[], by simp [World.step, World.next?, hc]⟩
    | cons p ps =>
      have hk : w.next? k = some p := World.next?_eq_some_iff.mpr ⟨call, ps, hc⟩
      exact ⟨p.further w.registry ++ ps, by
        simp [World.calls_step_part hk, hc, Ongoing.proceed]⟩
  · exact ⟨c.todo, World.getElem?_calls_step_of_ne hs hc⟩

/-- A world with a watcher. -/
structure Watched where
  world : World
  watcher : Watcher
  /-- The call which the last action of the watcher is. -/
  call : Option Nat

namespace Watched

/-- A watcher has been started on a channel that holds a value. -/
def start (w : World) (v : Visibility) : Watched := ⟨w, .start v, none⟩

/-- What happens in one piece: something else, something that the host does to the watcher or to its
channel, or something that the task of the watcher does. -/
inductive Step where
  | world (s : World.Step)
  | send (v : Visibility)
  | close
  | cancel
  | abort
  | begin_
  | observe

/-- The last action of the watcher, if there is one, has come to its end. -/
def isIdle (s : Watched) : Bool :=
  (s.call.bind fun k => s.world.calls[k]?).all fun c => c.todo.isEmpty

/-- The world, the watcher and its action after a look. -/
def look (s : Watched) : Watched :=
  let watcher := (s.watcher.observe s.world.registry).1
  match s.watcher.acts? with
  | none => { s with watcher }
  | some v =>
    { world := s.world.step (.call (.ofVisibility v))
      watcher
      call := some s.world.calls.length }

/-- What a step makes of a watched world. -/
def step (e : Step) (s : Watched) : Watched :=
  match e with
  | .world e => { s with world := s.world.step e }
  | .send v => { s with watcher := (s.watcher.send v).1 }
  | .close => { s with watcher := s.watcher.close }
  | .cancel => { s with watcher := s.watcher.cancel }
  | .abort => { s with watcher := s.watcher.abort }
  | .begin_ => { s with watcher := s.watcher.begin_.1 }
  | .observe => if s.isIdle then s.look else s

/-- The watched world after a list of steps. -/
def run : List Step → Watched → Watched
  | [], s => s
  | e :: es, s => run es (s.step e)

@[simp] theorem run_nil (s : Watched) : s.run [] = s := rfl

@[simp] theorem run_cons (e : Step) (es : List Step) (s : Watched) :
    s.run (e :: es) = (s.step e).run es := rfl

theorem run_append (es fs : List Step) (s : Watched) : s.run (es ++ fs) = (s.run es).run fs := by
  induction es generalizing s with
  | nil => rfl
  | cons e es ih => exact ih (s.step e)

/-- The last action of the watcher is the one for a visibility. -/
def Heeds (v : Visibility) (s : Watched) : Prop :=
  ∃ k todo, s.call = some k ∧ s.world.calls[k]? = some ⟨.ofVisibility v, todo⟩

/-- The task of the watcher has begun, it has not ended and is not told to, and it has seen the
latest value. -/
structure IsAttentive (s : Watched) : Prop where
  watching : ∃ v, s.watcher.task = .watching v
  cancelled : s.watcher.cancelled = false
  seen : s.watcher.seen = s.watcher.sent

/-! ## Turns that are left alone -/

/-- The watcher, its action and the registry after steps of the world alone. -/
theorem run_world (es : List World.Step) (s : Watched) :
    s.run (es.map .world) = { s with world := s.world.run es } := by
  induction es generalizing s with
  | nil => rfl
  | cons e es ih => exact ih (s.step (.world e))

/-- A step that the task of the watcher does, or a call of its that goes on. -/
def Step.isTurn : Step → Bool
  | .begin_ | .observe | .world (.part _) => true
  | _ => false

/-- A look whose action is left alone is a look of the watcher at the registry. -/
theorem exists_look {s : Watched} (hidle : s.isIdle = true) :
    ∃ es, (∀ e ∈ es, e.isTurn = true) ∧ (s.run es).isIdle = true ∧
      (s.run es).watcher = (s.watcher.observe s.world.registry).1 ∧
      (s.run es).world.registry = (s.watcher.observe s.world.registry).2.1 := by
  have hstep : s.step .observe = s.look := by rw [step, if_pos hidle]
  rw [Watcher.registry_observe]
  cases ha : s.watcher.acts? with
  | none =>
    refine ⟨[.observe], by simp [Step.isTurn], ?_⟩
    rw [run_cons, run_nil, hstep, look, ha]
    exact ⟨hidle, rfl, rfl⟩
  | some v =>
    let k := s.world.calls.length
    let called := s.world.step (.call (.ofVisibility v))
    have hcall : called.calls[k]? =
        some ⟨.ofVisibility v, (Call.ofVisibility v).parts s.world.registry ++ []⟩ := by
      simp [called, k, World.step]
    obtain ⟨n, hn, hdone⟩ :=
      (Registry.finishes_apply v s.world.registry).run (w := called) rfl hcall
    refine ⟨.observe :: (List.replicate n (.part k)).map .world, ?_, ?_⟩
    · simp [Step.isTurn]
    have hlook : s.look = ⟨called, (s.watcher.observe s.world.registry).1, some k⟩ := by
      rw [look, ha]
    rw [run_cons, hstep, run_world, hlook]
    refine ⟨?_, rfl, hn⟩
    simp [isIdle, hdone]

/-- A turn of the task that is left alone is a list of steps. -/
theorem exists_turn {s : Watched} (hidle : s.isIdle = true) :
    ∃ es, (∀ e ∈ es, e.isTurn = true) ∧ (s.run es).isIdle = true ∧
      (s.run es).watcher = (s.watcher.turn s.world.registry).1 ∧
      (s.run es).world.registry = (s.watcher.turn s.world.registry).2.1 := by
  let begun := s.step .begin_
  obtain ⟨first, hturn₁, hidle₁, hwatcher₁, hregistry₁⟩ := exists_look (s := begun) hidle
  obtain ⟨second, hturn₂, hidle₂, hwatcher₂, hregistry₂⟩ := exists_look hidle₁
  refine ⟨.begin_ :: (first ++ second), ?_, ?_⟩
  · simp only [List.mem_cons, List.mem_append]
    rintro e (rfl | he | he)
    · rfl
    · exact hturn₁ e he
    · exact hturn₂ e he
  rw [run_cons, run_append]
  rw [hwatcher₁, hregistry₁] at hwatcher₂ hregistry₂
  exact ⟨hidle₂, hwatcher₂, hregistry₂⟩

/-! ## What a watcher has acted on -/

/-- Since the watcher read its baseline, its last action is the one for the value it has seen last;
where it has not acted, that value is the baseline. -/
structure Follows (baseline : Visibility) (s : Watched) : Prop where
  begun : s.watcher.task ≠ .spawned
  seen_le : s.watcher.seen ≤ s.watcher.sent
  acted : ∀ v, s.watcher.task = .watching v → s.Heeds v ∨ (s.call = none ∧ v = baseline)
  latest : ∀ v, s.watcher.task = .watching v → s.watcher.seen = s.watcher.sent →
    s.watcher.value = v

theorem Heeds.world {v : Visibility} {s : Watched} (h : s.Heeds v) (e : World.Step) :
    Heeds v { s with world := s.world.step e } := by
  obtain ⟨k, todo, hk, hc⟩ := h
  obtain ⟨todo', hc'⟩ := World.getElem?_calls_step hc e
  exact ⟨k, todo', hk, hc'⟩

/-- A step of the world leaves the watcher where it is. -/
theorem Follows.world {b : Visibility} {s : Watched} (h : s.Follows b) (e : World.Step) :
    Follows b { s with world := s.world.step e } where
  begun := h.begun
  seen_le := h.seen_le
  acted v hv := (h.acted v hv).imp_left fun hheeds => hheeds.world e
  latest := h.latest

/-- When a watcher has had its first turn, it has seen the baseline and acted on nothing. -/
theorem follows_begin {s : Watched} (hspawned : s.watcher.task = .spawned) (hcall : s.call = none) :
    (s.step .begin_).Follows s.watcher.value := by
  have hbegin : s.watcher.begin_.1 =
      { s.watcher with seen := s.watcher.sent, task := .watching s.watcher.value } := by
    simp only [Watcher.begin_, hspawned]
  refine ⟨?_, ?_, ?_, ?_⟩ <;> simp only [step, hbegin]
  · simp
  · exact Nat.le_refl _
  · rintro v hv
    cases hv
    exact .inr ⟨hcall, rfl⟩
  · rintro v hv -
    cases hv
    rfl

theorem Follows.look {b : Visibility} {s : Watched} (h : s.Follows b) : s.look.Follows b := by
  rcases s.watcher.observe_cases s.world.registry with ⟨ha, hw⟩ | ⟨ha, hw⟩
  · have hlook : s.look = { s with watcher := (s.watcher.observe s.world.registry).1 } := by
      rw [Watched.look, ha]
    rw [hlook]
    rcases hw with hw | hw | ⟨ht, hw⟩
    · rw [hw]
      exact ⟨by simp, h.seen_le, by simp, by simp⟩
    · rw [hw]
      exact h
    · rw [hw]
      refine ⟨h.begun, Nat.le_refl _, h.acted, ?_⟩
      rintro v hv -
      rw [ht] at hv
      cases hv
      rfl
  · have hlook : s.look =
        { world := s.world.step (.call (.ofVisibility s.watcher.value))
          watcher := (s.watcher.observe s.world.registry).1
          call := some s.world.calls.length } := by
      rw [Watched.look, ha]
    rw [hlook, hw]
    refine ⟨by simp, Nat.le_refl _, ?_, ?_⟩
    · rintro v hv
      cases hv
      refine .inl ⟨_, (Call.ofVisibility s.watcher.value).parts s.world.registry, rfl, ?_⟩
      simp [World.step]
    · rintro v hv -
      cases hv
      rfl

theorem Follows.step {b : Visibility} {s : Watched} (h : s.Follows b) (e : Step) :
    (s.step e).Follows b := by
  cases e with
  | world e => exact h.world e
  | send v =>
    simp only [Watched.step, Watcher.send]
    split
    · exact h
    · refine ⟨h.begun, Nat.le_succ_of_le h.seen_le, h.acted, ?_⟩
      intro u _ hseen
      have := h.seen_le
      simp only at hseen
      omega
  | close | cancel => exact ⟨h.begun, h.seen_le, h.acted, h.latest⟩
  | abort => exact ⟨by simp [Watched.step, Watcher.abort], h.seen_le, by
      simp [Watched.step, Watcher.abort], by simp [Watched.step, Watcher.abort]⟩
  | begin_ =>
    have hbegin : s.watcher.begin_.1 = s.watcher := by
      simp only [Watcher.begin_]
      split
      · exact absurd ‹_› h.begun
      · rfl
    simp only [Watched.step, hbegin]
    exact h
  | observe =>
    simp only [Watched.step]
    split
    · exact h.look
    · exact h

theorem Follows.run {b : Visibility} {s : Watched} (h : s.Follows b) (es : List Step) :
    (s.run es).Follows b := by
  induction es generalizing s with
  | nil => exact h
  | cons e es ih => exact ih (h.step e)

/-- Once it has seen the latest value, a watcher has acted on it last; or it has not acted and the
value is the baseline. -/
theorem Follows.heeds {b : Visibility} {s : Watched} (h : s.Follows b) (ha : s.IsAttentive) :
    s.Heeds s.watcher.value ∨ (s.call = none ∧ s.watcher.value = b) := by
  obtain ⟨v, hv⟩ := ha.watching
  have hvalue : s.watcher.value = v := h.latest v hv ha.seen
  rw [hvalue]
  exact h.acted v hv

/-- A watcher that has not had its first turn has not had one before, and does not act. -/
theorem spawned_of_step {e : Step} {s : Watched} (h : (s.step e).watcher.task = .spawned) :
    s.watcher.task = .spawned ∧ (s.step e).call = s.call := by
  cases e with
  | world | close | cancel => exact ⟨h, rfl⟩
  | send v =>
    refine ⟨?_, rfl⟩
    simp only [step, Watcher.send] at h
    split at h <;> exact h
  | abort => cases h
  | begin_ =>
    refine ⟨?_, rfl⟩
    simp only [step, Watcher.begin_] at h
    split at h
    · assumption
    · exact h
  | observe =>
    simp only [step] at h ⊢
    split at h
    case isFalse hidle =>
      rw [if_neg hidle]
      exact ⟨h, rfl⟩
    case isTrue hidle =>
      rw [if_pos hidle]
      rcases s.watcher.observe_cases s.world.registry with ⟨ha, hw⟩ | ⟨ha, hw⟩
      · simp only [look, ha] at h ⊢
        rcases hw with hw | hw | ⟨ht, hw⟩
        · simp [hw] at h
        · exact ⟨hw ▸ h, trivial⟩
        · simp [hw, ht] at h
      · simp [look, ha, hw] at h

theorem spawned_of_run {es : List Step} {s : Watched} (h : (s.run es).watcher.task = .spawned) :
    (s.run es).call = s.call := by
  suffices s.watcher.task = .spawned ∧ (s.run es).call = s.call from this.2
  induction es generalizing s with
  | nil => exact ⟨h, rfl⟩
  | cons e es ih =>
    obtain ⟨hspawned, hcall⟩ := ih h
    obtain ⟨hbefore, hsame⟩ := spawned_of_step hspawned
    exact ⟨hbefore, hcall.trans hsame⟩

/-! ## Transitions -/

/-- Whatever else is under way, and whenever the host sends what: a watcher that has begun and has
seen the latest value has acted on it last, unless it has not acted and that value is the one that
it read in its first turn. So no change of the value that the channel held when the watcher was
started is lost exactly if the channel still held that value when the task had its first turn. -/
theorem heeds_changes_iff {w : World} {v : Visibility} {before : List Step}
    (hspawned : ((start w v).run before).watcher.task = .spawned)
    (hcancelled : ((start w v).run before).watcher.cancelled = false) :
    let begun := ((start w v).run before).step .begin_
    (∀ later, (begun.run later).IsAttentive →
      (begun.run later).Heeds (begun.run later).watcher.value ∨
        ((begun.run later).call = none ∧
          (begun.run later).watcher.value = begun.watcher.value)) ∧
    ((∀ later, (begun.run later).IsAttentive → (begun.run later).watcher.value ≠ v →
        (begun.run later).Heeds (begun.run later).watcher.value) ↔
      begun.watcher.value = v) := by
  intro begun
  have hbegin : begun.watcher =
      { ((start w v).run before).watcher with
        seen := ((start w v).run before).watcher.sent
        task := .watching ((start w v).run before).watcher.value } := by
    simp only [begun, step, Watcher.begin_, hspawned]
  have hcall : begun.call = none := spawned_of_run hspawned
  have hfollows : begun.Follows begun.watcher.value := by
    rw [hbegin]
    exact follows_begin hspawned (spawned_of_run hspawned)
  have hheeds : ∀ later, (begun.run later).IsAttentive →
      (begun.run later).Heeds (begun.run later).watcher.value ∨
        ((begun.run later).call = none ∧
          (begun.run later).watcher.value = begun.watcher.value) :=
    fun later ha => (hfollows.run later).heeds ha
  refine ⟨hheeds, ?_, ?_⟩
  · intro hall
    by_contra hne
    have hattentive : begun.IsAttentive := by
      refine ⟨⟨begun.watcher.value, ?_⟩, ?_, ?_⟩ <;> rw [hbegin]
      exact hcancelled
    obtain ⟨k, todo, hk, -⟩ := hall [] hattentive hne
    rw [run_nil, hcall] at hk
    cases hk
  · intro hvalue later ha hne
    rcases hheeds later ha with h | ⟨-, h⟩
    · exact h
    · exact absurd (h.trans hvalue) hne

/-- The host sends nothing before the first turn of the task and is hidden after it: the watcher
pauses the queries, here of an empty register. -/
theorem heeds_changes_hidden_later :
    let begun := (start (.start default) .visible).step .begin_
    (begun.run [.send .hidden, .observe]).Heeds .hidden := by
  have hheeds := (@heeds_changes_iff (.start default) .visible [] rfl rfl).2
  exact hheeds.mpr rfl [.send .hidden, .observe] ⟨⟨_, rfl⟩, rfl, rfl⟩ (by decide)

/-- The host is hidden before the task has its first turn: the watcher has seen it and does nothing,
so that not every change after the start is acted on. -/
theorem change_before_first_turn_lost :
    ¬ ∀ (w : World) (v : Visibility) (es : List Step), ((start w v).run es).IsAttentive →
      ((start w v).run es).watcher.value ≠ v →
      ((start w v).run es).Heeds ((start w v).run es).watcher.value := by
  intro hheeds
  obtain ⟨k, todo, hk, -⟩ := hheeds (.start default) .visible [.send .hidden, .begin_]
    ⟨⟨_, rfl⟩, rfl, rfl⟩ (by decide)
  cases hk

end Watched
end LiveQuery
