import LiveQuery.Proofs.LiveView.Standing

/-!
# What a view leaves behind

A view that returns has released what it started if its query is off the register and will never
poll or send again, and its watcher has been told to end. What becomes of the query hangs on the way
in which the view returns. If a line could not be written, nothing is released: a query that polls
goes on. If all lines were written, the query has been disposed of and the watcher has been ended,
but two things can be left: a loop whose task has not had its first turn still fetches once, and a
query that the watcher was resuming when it was stopped polls again.
-/

namespace LiveQuery
namespace Scene

section

variable (c : Settings) (o : ViewOrder)

/-- In the step a loop of the query begins a request. -/
def Begins (e : Step) (i : Nat) (s : Scene) : Prop :=
  s.world.phase? 0 i ≠ some .fetching ∧ (s.step c o e).world.phase? 0 i = some .fetching

/-- The watcher, if there is one, has ended or has been told to. -/
def Told (s : Scene) : Prop :=
  ∀ w, s.watch = some w → w.watcher.cancelled = true ∨ w.watcher.task = .ended

/-- Every loop of the query has had its first turn. -/
def AllBegun (s : Scene) : Prop :=
  ∀ q, s.world.query? 0 = some q → ∀ i, (q.phase i).hasBegun = true

/-- Whatever comes, what the view started is over: its query is off the register, does not poll and
sends nothing, and its watcher has been told to end. -/
structure Released (s : Scene) : Prop where
  unregistered : 0 ∉ s.world.registry.handles
  told : s.Told
  stopped : ∀ later, ¬ (s.run c o later).world.IsPolling 0
  silent : ∀ later e i, ¬ (s.run c o later).Begins c o e i

end

variable {c : Settings} {o : ViewOrder} {s : Scene}

/-! ## After the return -/

/-- What every step of the world keeps it keeps for good once the view has returned. -/
theorem run_of_returned (hr : s.phase.isReturned = true) (later : List Step) {P : World → Prop}
    (hp : P s.world)
    (hstep : ∀ w t, P w → (∀ h, t ≠ .move h .start ∧ t ≠ .move h .stop) → P (w.step t)) :
    (s.run c o later).phase.isReturned = true ∧ P (s.run c o later).world := by
  induction later generalizing s with
  | nil => exact ⟨hr, hp⟩
  | cons e later ih =>
    obtain ⟨hb, hr', -⟩ := (goes_step c o e s).of_returned hr
    refine ih hr' ?_
    rcases hb.world with hw | ⟨t, hw, ht⟩
    · rw [hw]
      exact hp
    · rw [hw]
      exact hstep _ t hp ht

/-- A query that is quiet when the view returns is quiet for good. -/
theorem released_of_isQuiet (hr : s.phase.isReturned = true) (hw : s.world.Orderly)
    (hq : s.world.IsQuiet 0) (ht : s.Told) : s.Released c o := by
  have hquiet : ∀ later, (s.run c o later).phase.isReturned = true ∧
      ((s.run c o later).world.Orderly ∧ (s.run c o later).world.IsQuiet 0) := fun later =>
    run_of_returned (P := fun w => w.Orderly ∧ w.IsQuiet 0) hr later ⟨hw, hq⟩
      fun w t hp hne => ⟨hp.1.step t, hp.2.step hp.1 (hne 0).1⟩
  refine ⟨hq.gone.unregistered, ht, ?_, ?_⟩
  · intro later hp
    exact (hquiet later).2.2.unrevived (.inl hp)
  · intro later e i hb
    obtain ⟨hreturned, -, hq'⟩ := hquiet later
    rcases ((goes_step c o e _).of_returned hreturned).1.world with hw' | ⟨t, hw', -⟩
    · rw [Begins, hw'] at hb
      exact hb.1 hb.2
    · rw [Begins, hw'] at hb
      exact hq'.not_begins t i hb

/-- The calls under way go on after the return as they do in the world alone. -/
theorem world_run_parts (k n : Nat) :
    (s.run c o (List.replicate n (.part k))).world =
      s.world.run (List.replicate n (.part k)) := by
  induction n generalizing s with
  | zero => rfl
  | succ n ih => exact ih

/-- A query that is gone is released exactly if it does not revive and every loop of it has had its
first turn. -/
theorem released_iff_of_isGone (hr : s.phase.isReturned = true) (hw : s.world.Orderly)
    (hg : s.world.IsGone 0) {q : Query} (hquery : s.world.query? 0 = some q) (hq : q.WellTimed)
    (ht : s.Told) : s.Released c o ↔ s.AllBegun ∧ ¬ s.world.Revives 0 := by
  constructor
  · intro hreleased
    refine ⟨?_, ?_⟩
    · intro q' hq' i
      cases hquery.symm.trans hq'
      rw [← Bool.not_eq_false]
      intro hnb
      -- A loop that has not begun is given its task, if it has none yet, and its first turn.
      let spawned := s.world.step (.move 0 (.spawn i))
      have hspawned : spawned.query? 0 = some (q.move (.spawn i)) := by
        rw [World.query?_step_of_move? (m := .spawn i) rfl, if_pos rfl, hquery, Option.map_some]
      have hbegins : spawned.Begins (.move 0 (.beginLoop i)) 0 i := by
        refine (World.begins_iff hspawned).mpr ⟨.beginLoop i, ?_, Query.exists_begins hnb⟩
        simp [World.moves, hspawned, World.move?]
      exact hreleased.silent [.task 0 (.spawn i)] (.task 0 (.beginLoop i)) i hbegins
    · rintro (hp | ⟨d, hd, -, hm⟩)
      · exact hreleased.stopped [] hp
      · obtain ⟨k, n, hp⟩ := World.exists_isPolling_of_start hw hd hm
        refine hreleased.stopped (List.replicate n (.part k)) ?_
        rwa [world_run_parts]
  · rintro ⟨hbegun, hrevives⟩
    refine released_of_isQuiet hr hw ⟨hg, hrevives, ?_, hbegun⟩ ht
    intro q' hq'
    cases hquery.symm.trans hq'
    exact hq

/-- A view that returns before it has made its query has nothing to release. -/
theorem released_of_start {client : Client} (hr : s.phase.isReturned = true)
    (hw : s.world = .start client) (hn : s.watch = none) : s.Released c o := by
  have hstart : ∀ later, (s.run c o later).world = .start client := by
    intro later
    induction later generalizing s with
    | nil => exact hw
    | cons e later ih =>
      obtain ⟨hb, hr', hn'⟩ := (goes_step c o e s).of_returned hr
      exact ih hr' (hb.of_start hw (hn' hn)) (hn' hn)
  have hnone : (World.start client).query? 0 = none := rfl
  refine ⟨?_, ?_, ?_, ?_⟩
  · simp [hw, World.start, Registry.empty, Registry.handles]
  · simp [Told, hn]
  · rintro later ⟨q, hq, -⟩
    rw [hstart later, hnone] at hq
    cases hq
  · rintro later e i ⟨-, hb⟩
    have hlater := hstart (later ++ [e])
    rw [run_append, run_cons, run_nil] at hlater
    rw [hlater, World.phase?, hnone] at hb
    cases hb

/-! ## The return -/

variable {raced : Prop}

theorem told_returnOk (s : Scene) : s.returnOk.Told := by
  intro w hw
  cases hs : s.watch with
  | none => simp [returnOk, onWatch, hs] at hw
  | some watch =>
    simp only [returnOk, onWatch, hs, Watched.step, Option.some.injEq] at hw
    rw [← hw]
    exact .inr rfl

/-- How a view returns: it could not make its query, or a line could not be written, or its query
does not poll, or its query has been disposed of. -/
inductive Returns (c : Settings) (o : ViewOrder) (raced : Prop) (s : Scene) :
    Except CommandError Nat → Prop
  | unmade (e : CommandError) (hne : ∀ why, e ≠ .output why)
    (hw : s.world = .start (.ofUrl c.api.baseUrl)) (hn : s.watch = none) :
    Returns c o raced s (.error e)
  | unwritten (why : String) (hw : s.world.Orderly) (hq : o.polls c = false → s.world.IsQuiet 0)
    (hh : o.polls c = true → 0 ∈ s.world.registry.handles) :
    Returns c o raced s (.error (.output why))
  | unpolled (n : Nat) (hw : s.world.Orderly) (hq : s.world.IsQuiet 0) (hr : ¬ raced)
    (ht : s.Told) : Returns c o raced s (.ok n)
  | disposed (n : Nat) (hw : s.world.Orderly) (hg : s.world.IsGone 0)
    (hq : ∃ q, s.world.query? 0 = some q ∧ q.WellTimed) (hr : raced ↔ s.world.Revives 0)
    (ht : s.Told) : Returns c o raced s (.ok n)

variable {result : Except CommandError Nat}

theorem returns_make (hw : s.world = .start (.ofUrl c.api.baseUrl)) (hn : s.watch = none)
    (hresult : (s.make c o).phase = .returned result) : Returns c o raced (s.make c o) result := by
  cases hf : o.flags.filter? with
  | error e =>
    simp only [make, hf] at hresult ⊢
    cases hresult
    exact .unmade _ (by simp) hw hn
  | ok filter =>
    cases hc : s.world.registry.create (some o.endpoint) filter (o.options c) true with
    | error e =>
      simp only [make, hf, hc] at hresult ⊢
      cases hresult
      exact .unmade _ (by simp) hw hn
    | ok made => simp only [make, hf, hc, reduceCtorEq] at hresult

theorem returns_close (hm : s.IsMade c o) (hr : ¬ raced)
    (he : o.polls c = true → s.world.registry.entries = [(0, 0)])
    (hresult : (s.close c o).phase = .returned result) :
    Returns c o raced (s.close c o) result := by
  cases ho : o.polls c with
  | false =>
    rw [close_of_not_polls ho] at hresult ⊢
    cases hresult
    refine .unpolled s.report.count ?_ ?_ hr (told_returnOk s)
    · rw [world_returnOk]
      exact hm.orderly
    · rw [world_returnOk]
      exact hm.isQuiet ho
  | true =>
    rw [(hm.close_of_polls ho he).2] at hresult
    cases hresult

theorem returns_look (hm : s.IsMade c o) (hr : ¬ raced) (hp : s.phase = .looking)
    (he : o.polls c = true → s.world.registry.entries = [(0, 0)]) {write : Except String Unit}
    (hresult : (s.look c o write).phase = .returned result) :
    Returns c o raced (s.look c o write) result := by
  by_cases hwants : s.report.wants s.snapshot = true
  · simp only [look, hwants, Bool.not_true, Bool.false_eq_true, if_false] at hresult ⊢
    cases write with
    | error why =>
      cases hresult
      refine .unwritten why hm.orderly hm.isQuiet fun ho => ?_
      have hhandles : s.world.registry.handles = [0] := by simp [Registry.handles, he ho]
      exact hhandles ▸ List.mem_singleton_self 0
    | ok =>
      let written : Scene := { s with report := s.report.add s.snapshot }
      have hm' : written.IsMade c o := ⟨hm.orderly, hm.query, hm.served, hm.busy⟩
      simp only at hresult ⊢
      split
      case isTrue hends =>
        rw [if_pos hends] at hresult
        exact returns_close hm' hr he hresult
      case isFalse hgoes =>
        rw [if_neg hgoes] at hresult
        cases hp.symm.trans hresult
  · simp only [look, hwants, Bool.not_false, if_true] at hresult
    cases hp.symm.trans hresult

theorem Stands.returns (hs : s.Stands c o raced) (hgoing : s.phase.isReturned = false) {e : Step}
    (hresult : (s.step c o e).phase = .returned result) :
    Returns c o raced (s.step c o e) result := by
  cases goes_step c o e s with
  | beside hb hp =>
    rw [← hp, hresult] at hgoing
    cases hgoing
  | make he hp hs' =>
    obtain ⟨hw, hn, -⟩ := hs.of_making hp
    rw [hs'] at hresult ⊢
    exact returns_make hw hn hresult
  | look write he hp hs' =>
    obtain ⟨hm, hentries, hr⟩ := hs.of_looking hp
    rw [hs'] at hresult ⊢
    exact returns_look hm hr hp hentries hresult
  | leave he hp hs' =>
    obtain ⟨hm, hentries, hr⟩ := hs.of_looking hp
    rw [hs'] at hresult ⊢
    exact returns_close hm hr hentries hresult
  | finish k he hp hd hs' =>
    obtain ⟨hm, hg, hdisposal⟩ := hs.of_disposing hp
    obtain ⟨q, hquery, hq⟩ := hm.query
    rw [hs'] at hresult ⊢
    cases hresult
    cases hdisposal with
    | taken hc => simp [isDone, hc] at hd
    | stopped hc hr =>
      have hw := world_returnOk s
      exact .disposed _ (hw ▸ hm.orderly) (hw ▸ hg) ⟨q, hw ▸ hquery, hq.timed⟩ (hw ▸ hr)
        (told_returnOk s)

/-- When a view returns, by whatever way and whatever is under way beside it, it has released its
query and its watcher exactly if no line failed to be written (or its query does not poll and the
watcher has been told to end by somebody else) and, where it has written all its lines, every loop
of the query has had its first turn and the watcher was not resuming the query when the disposal
stopped it. -/
theorem released_iff {es : List Step} {e : Step}
    (hgoing : ((start c o).run c o es).phase.isReturned = false)
    (hresult : (((start c o).run c o es).step c o e).phase = .returned result) :
    let left := ((start c o).run c o es).step c o e
    left.Released c o ↔
      (∀ why, result = .error (.output why) → o.polls c = false ∧ left.Told) ∧
      (∀ n, result = .ok n → left.AllBegun ∧ ¬ (start c o).Raced c o es) := by
  intro left
  have hreturned : left.phase.isReturned = true := by
    simp only [left, hresult, ViewPhase.isReturned]
  have hreturns : Returns c o ((start c o).Raced c o es) left result :=
    (stands_run_start es).returns hgoing hresult
  cases hreturns with
  | unmade err hne hw hn =>
    refine iff_of_true (released_of_start hreturned hw hn) ⟨?_, by simp⟩
    rintro why ⟨⟩
    exact absurd rfl (hne why)
  | unwritten why hw hquiet hh =>
    constructor
    · intro hreleased
      refine ⟨fun _ _ => ⟨?_, hreleased.told⟩, by simp⟩
      rw [← Bool.not_eq_true]
      exact fun ho => hreleased.unregistered (hh ho)
    · rintro ⟨hfailed, -⟩
      obtain ⟨ho, ht⟩ := hfailed why rfl
      exact released_of_isQuiet hreturned hw (hquiet ho) ht
  | unpolled n hw hq hr ht =>
    refine iff_of_true (released_of_isQuiet hreturned hw hq ht) ⟨by simp, ?_⟩
    exact fun _ _ => ⟨hq.begun, hr⟩
  | disposed n hw hg hq hr ht =>
    obtain ⟨q, hquery, hq⟩ := hq
    rw [released_iff_of_isGone hreturned hw hg hquery hq ht, ← hr]
    simp

/-- A view of one line of an endpoint that is asked every second, and of the visibility. -/
def oneLine : ViewOrder :=
  ⟨EndpointName.flow.endpoint, default, some 1000, some 1, ⟨true, false⟩, some .visible⟩

/-- The view makes its query, and the first fetch of that succeeds. -/
def fetchedOnce : List Step :=
  [.make, .task 0 (.beginLoop 0), .task 0 (.settleLoop 0 (.ok (.json .null)) ⟨0, 0⟩ 0)]

/-- A view that has written its line and has disposed of its query has released everything. -/
theorem released_iff_one_line :
    ((start .default oneLine).run .default oneLine
      (fetchedOnce ++ [.look (.ok ()), .part 0, .finish])).Released .default oneLine := by
  let before := (start .default oneLine).run .default oneLine
    (fetchedOnce ++ [.look (.ok ()), .part 0])
  have hgoing : before.phase.isReturned = false := rfl
  have hresult : (before.step .default oneLine .finish).phase = .returned (.ok 1) := rfl
  refine (released_iff hgoing hresult).mpr ⟨by simp, fun _ _ => ⟨?_, ?_⟩⟩
  · intro q hq i
    cases hq
    cases i <;> rfl
  -- The only step that is a part is the one by which the query is stopped.
  · rintro (⟨⟨_, _, ⟨⟩, _⟩, _⟩ | ⟨⟨_, _, ⟨⟩, _⟩, _⟩ | ⟨⟨_, _, ⟨⟩, _⟩, _⟩ | ⟨⟨_, _, ⟨⟩, _⟩, _⟩ | hstop | h)
    · obtain ⟨-, call, hcall, hresumes, -⟩ := hstop
      cases List.mem_singleton.mp hcall
      cases hresumes
    · exact h

/-- A view whose output fails leaves its query on the register, and the query of one that was told to
end before it was made is asked for once more after the return; so not every view releases what it
has started, whether it returns with an error or not. -/
theorem unreleased_on_return :
    (¬ ∀ (c : Settings) (o : ViewOrder) (es : List Step) (why : String),
      ((start c o).run c o es).phase = .returned (.error (.output why)) →
      ((start c o).run c o es).Released c o) ∧
    ¬ ∀ (c : Settings) (o : ViewOrder) (es : List Step) (n : Nat),
      ((start c o).run c o es).phase = .returned (.ok n) →
      ((start c o).run c o es).Released c o := by
  constructor
  · intro hreleased
    have hleft := hreleased .default oneLine (fetchedOnce ++ [.look (.error "closed")]) "closed" rfl
    exact hleft.unregistered (List.mem_singleton_self 0)
  · intro hreleased
    have hleft := hreleased .default oneLine [.cancel, .make, .leave, .part 0, .finish] 0 rfl
    exact hleft.silent [] (.task 0 (.beginLoop 0)) 0 ⟨by decide, rfl⟩

end Scene
end LiveQuery
