import LiveQuery.Proofs.LiveView.Scene

/-!
# Where a view stands

What is true of a scene at each point of its view. Before the view has made its query nothing has
happened; while it looks, its query is on the register if it polls, and nothing is under way but
what the watcher does; and once it has taken the query off the register, `World.Disposal` says what
becomes of that. `stands_run_start` says that every run of a scene keeps to this.
-/

namespace LiveQuery
namespace Scene

section

variable (c : Settings) (o : ViewOrder)

/-- In the step the disposal stops the query, and the watcher, which is resuming the queries, has
its handle and is still to start it. -/
def Races (e : Step) (s : Scene) : Prop :=
  (∃ k, s.phase = .disposing k ∧ e = .part k ∧ s.world.next? k = some (.stop 0)) ∧
    (s.step c o e).world.Resumes 0

/-- The query was being resumed when the disposal stopped it. -/
def Raced : List Step → Scene → Prop
  | [], _ => False
  | e :: es, s => s.Races c o e ∨ Raced es (s.step c o e)

end

variable {c : Settings} {o : ViewOrder} {s : Scene}

/-- Beside a view that has no query yet nothing happens. -/
theorem Beside.of_start {e : Step} {s s' : Scene} (hb : Beside e s s') {client : Client}
    (hw : s.world = .start client) (hn : s'.watch = none) : s'.world = .start client := by
  cases hb with
  | still he hw' ha => rw [hw', hw]
  | goesOn t ht he hw' ha => rw [hw', hw, World.step_start ht]
  | acts he v hidle hw' ha => simp [action?, hn] at ha

/-- The query that the view has made. -/
structure IsOwn (c : Settings) (o : ViewOrder) (q : Query) : Prop where
  id : q.id = 0
  timed : q.WellTimed
  polls : q.options.isPolling = o.polls c

theorem isOwn_run {q : Query} (hq : IsOwn c o q) (ms : List Move) : IsOwn c o (q.run ms) where
  id := by rw [Query.id_run, hq.id]
  timed := Query.wellTimed_run ms hq.timed
  polls := by rw [Query.options_run, hq.polls]

theorem exists_isOwn_step {w : World} (h : ∃ q, w.query? 0 = some q ∧ IsOwn c o q)
    (t : World.Step) : ∃ q, (w.step t).query? 0 = some q ∧ IsOwn c o q := by
  obtain ⟨q, hquery, hq⟩ := h
  exact ⟨_, World.query?_step hquery, isOwn_run hq _⟩

/-- The view has made its query, and nothing is under way but what the watcher and the disposal
do. -/
structure IsMade (c : Settings) (o : ViewOrder) (s : Scene) : Prop where
  orderly : s.world.Orderly
  query : ∃ q, s.world.query? 0 = some q ∧ IsOwn c o q
  served : s.world.IsServed
  busy : ∀ i call, s.world.calls[i]? = some call → call.todo ≠ [] →
    s.action? = some i ∨ s.phase = .disposing i

theorem IsMade.polls (hm : s.IsMade c o) (ho : o.polls c = true) : s.world.Polls 0 := by
  obtain ⟨q, hquery, hq⟩ := hm.query
  exact ⟨q, hquery, hq.polls.trans ho⟩

/-- A query that does not poll is quiet. -/
theorem IsMade.isQuiet (hm : s.IsMade c o) (ho : o.polls c = false) : s.world.IsQuiet 0 := by
  obtain ⟨q, hquery, hq⟩ := hm.query
  exact World.isQuiet_of_not_isPolling hm.orderly hquery hq.timed (hq.polls.trans ho)

theorem IsMade.beside (hm : s.IsMade c o) {e : Step} {s' : Scene} (hb : Beside e s s')
    (hp : s'.phase = s.phase) : s'.IsMade c o := by
  cases hb with
  | still he hw ha =>
    refine ⟨?_, ?_, ?_, ?_⟩
    · rw [hw]
      exact hm.orderly
    · rw [hw]
      exact hm.query
    · rw [hw]
      exact hm.served
    · rw [hw, ha, hp]
      exact hm.busy
  | goesOn t ht he hw ha =>
    refine ⟨?_, ?_, ?_, ?_⟩
    · rw [hw]
      exact hm.orderly.step t
    · rw [hw]
      exact exists_isOwn_step hm.query t
    · rw [hw]
      exact hm.served.goesOn ht
    · rw [hw, ha, hp]
      intro i call hcall hne
      obtain ⟨before, hbefore, hne⟩ := World.exists_busy_of_goesOn ht hcall hne
      exact hm.busy i before hbefore hne
  | acts he v hidle hw ha =>
    refine ⟨?_, ?_, ?_, ?_⟩
    · rw [hw]
      exact hm.orderly.step _
    · rw [hw]
      exact exists_isOwn_step hm.query _
    · rw [hw]
      exact hm.served.acts v
    · rw [hw, ha, hp]
      intro i call hcall hne
      rcases World.getElem?_calls_append hcall with hcall | ⟨rfl, -⟩
      · rcases hm.busy i call hcall hne with hi | hi
        -- The last action has come to its end, so that it has nothing to do.
        · have hdone := hidle i hi
          rw [isDone, hcall] at hdone
          exact absurd (by simpa using hdone) hne
        · exact .inr hi
      · exact .inl rfl

/-- Where a view stands that has not returned; `raced` says that its query was being resumed when
the disposal stopped it. -/
inductive Stands (c : Settings) (o : ViewOrder) (raced : Prop) (s : Scene) : Prop
  | making (hp : s.phase = .making) (hw : s.world = .start (.ofUrl c.api.baseUrl))
    (hn : s.watch = none) (hr : ¬ raced)
  | looking (hp : s.phase = .looking) (hm : s.IsMade c o)
    (he : o.polls c = true → s.world.registry.entries = [(0, 0)]) (hr : ¬ raced)
  | disposing (k : Nat) (hp : s.phase = .disposing k) (hm : s.IsMade c o)
    (ho : o.polls c = true) (hg : s.world.IsGone 0) (hd : s.world.Disposal k 0 0 raced)
  | returned (hp : s.phase.isReturned = true)

variable {raced : Prop}

theorem not_races (hp : ∀ k, s.phase ≠ .disposing k) (e : Step) : ¬ s.Races c o e := by
  rintro ⟨⟨k, hk, -⟩, -⟩
  exact hp k hk

theorem Stands.beside (hs : s.Stands c o raced) {e : Step} (hb : Beside e s (s.step c o e))
    (hp : (s.step c o e).phase = s.phase) (hn : s.watch = none → (s.step c o e).watch = none) :
    (s.step c o e).Stands c o (raced ∨ s.Races c o e) := by
  cases hs with
  | making hp' hw hn' hr =>
    have hraces : ¬ s.Races c o e := not_races (by simp [hp']) e
    exact .making (hp.trans hp') (hb.of_start hw (hn hn')) (hn hn') (by simp [hr, hraces])
  | looking hp' hm he hr =>
    have hraces : ¬ s.Races c o e := not_races (by simp [hp']) e
    refine .looking (hp.trans hp') (hm.beside hb hp) (fun ho => ?_) (by simp [hr, hraces])
    cases hb with
    | still _ hw => rw [hw, he ho]
    | goesOn t ht _ hw =>
      have hperm := hm.served.entries_goesOn ht
      rw [he ho, List.perm_singleton] at hperm
      rw [hw, hperm]
    | acts _ v _ hw =>
      rw [hw]
      exact he ho
  | disposing k hp' hm ho hg hd =>
    have hm' := hm.beside hb hp
    have hpolls := hm.polls ho
    have hraces : s.Races c o e ↔ e = .part k ∧ s.world.next? k = some (.stop 0) ∧
        (s.step c o e).world.Resumes 0 := by
      constructor
      · rintro ⟨⟨j, hj, he, hnext⟩, hres⟩
        cases hp'.symm.trans hj
        exact ⟨he, hnext, hres⟩
      · rintro ⟨he, hnext, hres⟩
        exact ⟨⟨k, hp', he, hnext⟩, hres⟩
    have hbusy : ∀ i call, (s.step c o e).world.calls[i]? = some call → call.todo ≠ [] →
        (s.step c o e).action? = some i ∨ i = k := by
      intro i call hcall hne
      refine (hm'.busy i call hcall hne).imp_right fun hi => ?_
      rw [hp, hp'] at hi
      cases hi
      rfl
    have hresumes : (s.step c o e).world.calls[k]? = some ⟨.dispose 0, []⟩ →
        (s.step c o e).world.Resumes 0 → ¬ (s.step c o e).world.Halts 0 :=
      hm'.served.not_halts hbusy
    rw [hraces]
    cases hb with
    | still he hw =>
      refine .disposing k (hp.trans hp') hm' ho (hw ▸ hg) ?_
      simpa [he, hw] using hd
    | goesOn t ht he hw =>
      have hne := World.Step.ne_of_goesOn ht 0
      refine .disposing k (hp.trans hp') hm' ho (hw ▸ (hg.step hm.orderly t).1) ?_
      rw [hw] at hresumes ⊢
      rw [← he k]
      exact hd.step hm.orderly hg hpolls hne.1 hne.2
        (hm.served.halts_of_goesOn hg.unregistered ht) hresumes
    | acts he v hidle hw =>
      refine .disposing k (hp.trans hp') hm' ho (hw ▸ (hg.step hm.orderly _).1) ?_
      rw [hw] at hresumes ⊢
      have hd' := hd.step hm.orderly hg hpolls (t := .call (.ofVisibility v)) (by simp) (by simp)
        World.halts_of_acts hresumes
      simpa [he] using hd'
  | returned hp' => exact .returned (by rw [hp, hp'])

theorem isMade_create {client : Client} {filter : Filter} {h : Handle} {r : Registry}
    {effects : List Effect} (hc : (Registry.empty client).create (some o.endpoint) filter
      (o.options c) true = .ok (h, r, effects)) (hr : s.world.registry = r)
    (hcalls : s.world.calls = []) : s.IsMade c o := by
  obtain ⟨-, ⟨ms, hqueries⟩, hentries⟩ := Registry.create_empty hc
  have hw : s.world = ⟨r, []⟩ := by rw [← hr, ← hcalls]
  let q := (Query.fresh 0 client o.endpoint filter (o.options c)).run ms
  have hquery : s.world.query? 0 = some q := by simp [hw, World.query?, hqueries, q]
  have hq : IsOwn c o q := isOwn_run ⟨rfl, Query.wellTimed_fresh .., rfl⟩ ms
  have horderly : s.world.Orderly := by
    have hregistered : ∀ h ∈ s.world.registry.handles, s.world.Polls h := by
      intro h hh
      rw [hw, Registry.handles, hentries] at hh
      split at hh
      · rename_i ho
        obtain rfl : h = 0 := by simpa using hh
        exact ⟨q, hquery, hq.polls.trans ho⟩
      · cases hh
    have hnodup : s.world.registry.handles.Nodup := by
      rw [hw, Registry.handles, hentries]
      split <;> simp
    exact ⟨by simp [hw], hregistered, by simp [hw], hnodup, by simp [hw], by simp [hw]⟩
  refine ⟨horderly, ⟨q, hquery, hq⟩, ?_, ?_⟩
  · simp [World.IsServed, hw]
  · simp [hw]

theorem stands_make (hw : s.world = .start (.ofUrl c.api.baseUrl)) :
    (s.make c o).Stands c o False := by
  simp only [make]
  split
  · exact .returned rfl
  · split
    · exact .returned rfl
    · rename_i hc
      rw [hw] at hc
      have hcalls : s.world.calls = [] := by rw [hw]; rfl
      obtain ⟨-, -, hentries⟩ := Registry.create_empty hc
      exact .looking rfl (isMade_create hc rfl hcalls) (fun ho => hentries.trans (if_pos ho)) id

/-- A view whose query polls finds it on the register when it ends. -/
theorem IsMade.close_of_polls (hm : s.IsMade c o) (ho : o.polls c = true)
    (he : o.polls c = true → s.world.registry.entries = [(0, 0)]) :
    s.world.registry.get? 0 = some 0 ∧ s.close c o =
      { s with
        world := s.world.beginDispose 0
        phase := .disposing s.world.calls.length } := by
  obtain ⟨q, hquery, hq⟩ := hm.query
  have hget : s.world.registry.get? 0 = some 0 := by simp [Registry.get?, he ho]
  have hclose := Scene.close_of_polls ho hquery (h := 0) (by rw [hq.id, hget])
  rw [hq.id] at hclose
  exact ⟨hget, hclose⟩

theorem stands_close (hm : s.IsMade c o) (hp : s.phase = .looking)
    (he : o.polls c = true → s.world.registry.entries = [(0, 0)]) :
    (s.close c o).Stands c o False := by
  cases ho : o.polls c with
  | false =>
    rw [close_of_not_polls ho]
    exact .returned rfl
  | true =>
    obtain ⟨hget, hclose⟩ := hm.close_of_polls ho he
    have hcalls := World.calls_beginDispose hget
    rw [hclose]
    refine .disposing _ rfl ⟨?_, ?_, ?_, ?_⟩ ho (World.isGone_beginDispose hm.orderly hget)
      (.taken ?_ id)
    · exact (hm.orderly.step (.call (.dispose 0))).step (.part s.world.calls.length)
    · exact exists_isOwn_step (exists_isOwn_step hm.query (.call (.dispose 0)))
        (.part s.world.calls.length)
    · intro call hcall p hpart
      simp only [hcalls, List.mem_append, List.mem_singleton] at hcall
      rcases hcall with hcall | rfl
      · exact hm.served call hcall p hpart
      · cases List.mem_singleton.mp hpart
        exact .stop 0 0
    · intro i call hcall hne
      simp only [hcalls] at hcall
      rcases World.getElem?_calls_append hcall with hcall | ⟨rfl, -⟩
      · have hbusy := hm.busy i call hcall hne
        rw [hp] at hbusy
        exact .inl (hbusy.resolve_right (by simp))
      · exact .inr rfl
    · simp [hcalls]

theorem stands_look (hm : s.IsMade c o) (hp : s.phase = .looking)
    (he : o.polls c = true → s.world.registry.entries = [(0, 0)]) (write : Except String Unit) :
    (s.look c o write).Stands c o False := by
  have hm' : ({ s with report := s.report.add s.snapshot } : Scene).IsMade c o :=
    ⟨hm.orderly, hm.query, hm.served, hm.busy⟩
  simp only [look]
  split
  · exact .looking hp hm he id
  · cases write with
    | error why => exact .returned rfl
    | ok =>
      simp only
      split
      · exact stands_close hm' hp he
      · exact .looking hp hm' he id

theorem Stands.of_making (hs : s.Stands c o raced) (hp : s.phase = .making) :
    s.world = .start (.ofUrl c.api.baseUrl) ∧ s.watch = none ∧ ¬ raced := by
  cases hs with
  | making hp' hw hn hr => exact ⟨hw, hn, hr⟩
  | looking hp' | disposing k hp' => simp [hp] at hp'
  | returned hp' => simp [hp, ViewPhase.isReturned] at hp'

theorem Stands.of_looking (hs : s.Stands c o raced) (hp : s.phase = .looking) :
    s.IsMade c o ∧ (o.polls c = true → s.world.registry.entries = [(0, 0)]) ∧ ¬ raced := by
  cases hs with
  | looking hp' hm he hr => exact ⟨hm, he, hr⟩
  | making hp' | disposing k hp' => simp [hp] at hp'
  | returned hp' => simp [hp, ViewPhase.isReturned] at hp'

theorem Stands.of_disposing (hs : s.Stands c o raced) {k : Nat} (hp : s.phase = .disposing k) :
    s.IsMade c o ∧ s.world.IsGone 0 ∧ s.world.Disposal k 0 0 raced := by
  cases hs with
  | disposing k' hp' hm ho hg hd =>
    rw [hp, ViewPhase.disposing.injEq] at hp'
    exact ⟨hm, hg, hp' ▸ hd⟩
  | making hp' | looking hp' => simp [hp] at hp'
  | returned hp' => simp [hp, ViewPhase.isReturned] at hp'

theorem Stands.step (hs : s.Stands c o raced) (e : Step) :
    (s.step c o e).Stands c o (raced ∨ s.Races c o e) := by
  have hsame : ¬ raced → (∀ k, s.phase ≠ .disposing k) → (raced ∨ s.Races c o e) = False :=
    fun hr hp => eq_false (by simp [hr, not_races hp e])
  cases goes_step c o e s with
  | beside hb hp hn => exact hs.beside hb hp hn
  | make he hp hs' =>
    obtain ⟨hw, hn, hr⟩ := hs.of_making hp
    rw [hs', hsame hr (by simp [hp])]
    exact stands_make hw
  | look write he hp hs' =>
    obtain ⟨hm, hentries, hr⟩ := hs.of_looking hp
    rw [hs', hsame hr (by simp [hp])]
    exact stands_look hm hp hentries write
  | leave he hp hs' =>
    obtain ⟨hm, hentries, hr⟩ := hs.of_looking hp
    rw [hs', hsame hr (by simp [hp])]
    exact stands_close hm hp hentries
  | finish k he hp hd hs' =>
    rw [hs']
    exact .returned rfl

theorem Stands.run (hs : s.Stands c o raced) (es : List Step) :
    (s.run c o es).Stands c o (raced ∨ s.Raced c o es) := by
  induction es generalizing s raced with
  | nil =>
    rw [Raced, or_false]
    exact hs
  | cons e es ih =>
    rw [Raced, ← or_assoc]
    exact ih (hs.step e)

theorem stands_run_start (es : List Step) :
    ((start c o).run c o es).Stands c o ((start c o).Raced c o es) := by
  have hstart : (start c o).Stands c o False := .making rfl rfl rfl id
  have hrun := hstart.run es
  rwa [false_or] at hrun

end Scene
end LiveQuery
