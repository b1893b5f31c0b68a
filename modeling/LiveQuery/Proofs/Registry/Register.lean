import LiveQuery.Proofs.Registry.World

/-!
# Who is on the register

A query is made by one call, which starts it before anything else can and enters it in the register
last. So a query that is on the register is nobody's to enter any more, and nobody is still to start
it but a call that starts all queries and has copied its handle. `World.Orderly` says this of a
world, and `orderly_run_start` that every reachable world is orderly.
-/

namespace LiveQuery

/-- A part that enters a query in the register, or leads to it. -/
def Part.enters : Part → Bool
  | .issue _ _ _ | .build _ _ _ _ _ | .enter _ _ => true
  | .start _ | .spawn _ _ | .stop _ | .copy _ | .take _ => false

/-- A part that makes a query that polls. -/
def Part.BuildsPolling : Part → Prop
  | .build _ _ _ o _ => o.isPolling = true
  | _ => False

theorem Part.Follows.enters {p p' : Part} {r : Registry} (hf : Follows r p p')
    (hp : p.enters = false) : p'.enters = false := by
  cases hf with
  | spawn | startAll | stopAll | stop => rfl
  | build | start | enter => cases hp

/-- Behind a part that enters a query, or leads to it, nothing is left to do. -/
def Part.EnteringLast (ps : List Part) : Prop := ps.Pairwise fun p _ => p.enters = false

theorem Part.enteringLast_of_forall {ps : List Part} (h : ∀ p ∈ ps, p.enters = false) :
    EnteringLast ps := by
  induction ps with
  | nil => exact .nil
  | cons p ps ih =>
    exact .cons (fun _ _ => h p (by simp)) (ih fun p' hp' => h p' (by simp [hp']))

theorem Part.enteringLast_further (p : Part) (r : Registry) : EnteringLast (p.further r) := by
  cases hp : p.enters with
  | false => exact enteringLast_of_forall fun p' hm => (follows_of_mem_further hm).enters hp
  | true =>
    cases p with
    | issue => exact List.pairwise_singleton _ _
    | enter => exact .nil
    | build id e f o enters =>
      simp only [further]
      cases o.isPolling <;> cases enters <;> simp [EnteringLast, Part.enters]
    | start | spawn | stop | copy | take => cases hp

theorem Part.EnteringLast.eq_nil {p : Part} {ps : List Part} (h : EnteringLast (p :: ps))
    (hp : p.enters = true) : ps = [] := by
  cases ps with
  | nil => rfl
  | cons p' ps =>
    have := List.rel_of_pairwise_cons h (List.mem_cons_self (a := p') (l := ps))
    rw [hp] at this
    cases this

/-! ## One call -/

namespace Ongoing

/-- What a call under way has to do fits it. -/
structure Fits (c : Ongoing) : Prop where
  enteringLast : Part.EnteringLast c.todo
  copies : .copy true ∈ c.todo → c.call = .resumeAll

/-- The call is the one that makes a query: it is still to start it first, or to enter it. -/
def Makes (h : Handle) (c : Ongoing) : Prop :=
  (∃ id, .enter id h ∈ c.todo) ∨ (.start h ∈ c.todo ∧ c.call ≠ .resumeAll)

theorem Makes.named {h : Handle} {c : Ongoing} (hm : c.Makes h) :
    .start h ∈ c.todo ∨ ∃ id, .enter id h ∈ c.todo :=
  hm.elim .inr fun hs => .inl hs.1

/-- A call has nothing to start and nothing to enter at first. -/
theorem fits_parts (c : Call) (r : Registry) : Fits ⟨c, c.parts r⟩ := by
  refine ⟨?_, fun hm => ?_⟩
  · cases c with
    | create | make =>
      simp only [Call.parts]
      split
      · exact .nil
      · exact List.pairwise_singleton _ _
    | resumeAll | pauseAll | dispose => exact List.pairwise_singleton _ _
    | teardown owned =>
      refine Part.enteringLast_of_forall fun p (hp : p ∈ (Call.teardown owned).parts r) => ?_
      cases Call.beginsWith_of_mem_parts hp <;> rfl
  · change .copy true ∈ c.parts r at hm
    cases Call.beginsWith_of_mem_parts hm
    rfl

theorem start_not_mem_parts (c : Call) (h : Handle) (r : Registry) : .start h ∉ c.parts r := by
  intro hm
  cases Call.beginsWith_of_mem_parts hm

theorem enter_not_mem_parts (c : Call) (id : Nat) (h : Handle) (r : Registry) :
    .enter id h ∉ c.parts r := by
  intro hm
  cases Call.beginsWith_of_mem_parts hm

theorem not_makes_parts (c : Call) (h : Handle) (r : Registry) : ¬ Makes h ⟨c, c.parts r⟩ := by
  rintro (⟨id, hm⟩ | ⟨hm, -⟩)
  · exact enter_not_mem_parts c id h r hm
  · exact start_not_mem_parts c h r hm

/-! A call that does its next part -/

variable {c : Call} {p : Part} {ps : List Part} {r : Registry} {h : Handle}

theorem fits_proceed (hf : Fits ⟨c, p :: ps⟩) : Fits (proceed r ⟨c, p :: ps⟩) := by
  obtain ⟨hlast, hcopies⟩ := hf
  refine ⟨?_, fun hm => ?_⟩
  · refine List.pairwise_append.mpr ⟨Part.enteringLast_further p r, hlast.of_cons, ?_⟩
    intro p' hp' p'' hp''
    have hp := List.rel_of_pairwise_cons hlast hp''
    exact (Part.follows_of_mem_further hp').enters hp
  · rcases List.mem_append.mp hm with hm | hm
    · cases Part.follows_of_mem_further hm
    · exact hcopies (List.mem_cons_of_mem p hm)

/-- What a call is to start after a part it was to start before, or it has just copied the handle, or
just made the query. -/
theorem start_mem_proceed (hm : .start h ∈ (proceed r ⟨c, p :: ps⟩).todo) :
    .start h ∈ p :: ps ∨ (p = .copy true ∧ h ∈ r.handles) ∨
      (p.BuildsPolling ∧ h = r.queries.length) := by
  rcases List.mem_append.mp hm with hm | hm
  · cases Part.follows_of_mem_further hm with
    | start ho => exact .inr (.inr ⟨ho, rfl⟩)
    | startAll hh => exact .inr (.inl ⟨rfl, hh⟩)
  · exact .inl (List.mem_cons_of_mem p hm)

/-- What a call is to enter after a part it was to enter before, or it has just made the query. -/
theorem enter_mem_proceed {id : Nat} (hm : .enter id h ∈ (proceed r ⟨c, p :: ps⟩).todo) :
    .enter id h ∈ p :: ps ∨ (p.BuildsPolling ∧ h = r.queries.length) := by
  rcases List.mem_append.mp hm with hm | hm
  · cases Part.follows_of_mem_further hm with
    | enter ho => exact .inr ⟨ho, rfl⟩
  · exact .inl (List.mem_cons_of_mem p hm)

/-- A call that makes a query after a part has done so before, or has just begun to. -/
theorem makes_proceed (hf : Fits ⟨c, p :: ps⟩) (hm : (proceed r ⟨c, p :: ps⟩).Makes h) :
    Makes h ⟨c, p :: ps⟩ ∨ (p.BuildsPolling ∧ h = r.queries.length) := by
  rcases hm with ⟨id, hm⟩ | ⟨hm, hc⟩
  · exact (enter_mem_proceed hm).imp_left fun hm => .inl ⟨id, hm⟩
  · rcases start_mem_proceed hm with hm | ⟨rfl, -⟩ | hb
    · exact .inl (.inr ⟨hm, hc⟩)
    · exact absurd (hf.copies (List.mem_cons_self ..)) hc
    · exact .inr hb

/-- The last that a call does for a query that it makes is to enter it. -/
theorem not_makes_proceed_enter {id : Nat} (hf : Fits ⟨c, .enter id h :: ps⟩) (g : Handle) :
    ¬ (proceed r ⟨c, .enter id h :: ps⟩).Makes g := by
  have hps : ps = [] := hf.enteringLast.eq_nil rfl
  subst hps
  simp [Makes, proceed, Part.further]

end Ongoing

/-! ## All calls -/

namespace World

/-- A query is there, and its interval makes it poll. -/
def Polls (h : Handle) (w : World) : Prop := ∃ q, w.query? h = some q ∧ q.options.isPolling = true

theorem Polls.lt_length {h : Handle} {w : World} (hp : w.Polls h) :
    h < w.registry.queries.length := by
  obtain ⟨q, hq, -⟩ := hp
  exact (List.getElem?_eq_some_iff.mp hq).1

theorem polls_step {h : Handle} {w : World} (hp : w.Polls h) (s : Step) : (w.step s).Polls h := by
  obtain ⟨q, hq, ho⟩ := hp
  exact ⟨_, query?_step hq, by rw [Query.options_run, ho]⟩

theorem polls_run {h : Handle} {w : World} (hp : w.Polls h) (ss : List Step) :
    (w.run ss).Polls h := by
  induction ss generalizing w with
  | nil => exact hp
  | cons s ss ih => exact ih (polls_step hp s)

/-- No two calls make the same query, none makes a query that is on the register, no query is there
twice, and whatever is there or is to be started or to be entered polls. -/
structure Orderly (w : World) : Prop where
  fits : ∀ c ∈ w.calls, c.Fits
  registered : ∀ h ∈ w.registry.handles, w.Polls h
  named : ∀ c ∈ w.calls, ∀ h, (.start h ∈ c.todo ∨ ∃ id, .enter id h ∈ c.todo) → w.Polls h
  nodup : w.registry.handles.Nodup
  unregistered : ∀ c ∈ w.calls, ∀ h, c.Makes h → h ∉ w.registry.handles
  unique : ∀ (i j : Nat) (c d : Ongoing) (h : Handle), w.calls[i]? = some c →
    w.calls[j]? = some d → c.Makes h → d.Makes h → i = j

theorem orderly_start (client : Client) : (start client).Orderly :=
  ⟨by simp [start], by simp [start, Registry.empty, Registry.handles], by simp [start],
    by simp [start, Registry.empty, Registry.handles], by simp [start], by simp [start]⟩

theorem mem_calls_step_call {w : World} {c : Call} {d : Ongoing}
    (hd : d ∈ (w.step (.call c)).calls) : d ∈ w.calls ∨ d = ⟨c, c.parts w.registry⟩ := by
  simpa [step] using hd

/-- Where a call is after another has begun it was before, or it is that one. -/
theorem getElem?_calls_append {cs : List Ongoing} {i : Nat} {c d : Ongoing}
    (hd : (cs ++ [c])[i]? = some d) : cs[i]? = some d ∨ (i = cs.length ∧ d = c) := by
  by_cases hi : i < cs.length
  · rw [List.getElem?_append_left hi] at hd
    exact .inl hd
  · obtain ⟨hlt, hget⟩ := List.getElem?_eq_some_iff.mp hd
    rw [List.length_append, List.length_singleton] at hlt
    obtain rfl : i = cs.length := by omega
    exact .inr ⟨rfl, by simpa using hget.symm⟩

/-- A call begins. -/
theorem Orderly.call {w : World} (hw : w.Orderly) (c : Call) : (w.step (.call c)).Orderly := by
  constructor
  case fits =>
    intro d hd
    rcases mem_calls_step_call hd with hd | rfl
    · exact hw.fits d hd
    · exact Ongoing.fits_parts c _
  case registered => exact hw.registered
  case named =>
    intro d hd h hn
    rcases mem_calls_step_call hd with hd | rfl
    · exact hw.named d hd h hn
    · rcases hn with hm | ⟨id, hm⟩
      · exact absurd hm (Ongoing.start_not_mem_parts c h _)
      · exact absurd hm (Ongoing.enter_not_mem_parts c id h _)
  case nodup => exact hw.nodup
  case unregistered =>
    intro d hd h hm
    rcases mem_calls_step_call hd with hd | rfl
    · exact hw.unregistered d hd h hm
    · exact absurd hm (Ongoing.not_makes_parts c h _)
  case unique =>
    have hold : ∀ (i : Nat) (d : Ongoing) (h : Handle), (w.step (.call c)).calls[i]? = some d →
        d.Makes h → w.calls[i]? = some d := by
      intro i d h hi hm
      rcases getElem?_calls_append hi with hi | ⟨-, rfl⟩
      · exact hi
      · exact absurd hm (Ongoing.not_makes_parts c h _)
    intro i j d d' h hi hj hd hd'
    exact hw.unique i j d d' h (hold i d h hi hd) (hold j d' h hj hd') hd hd'

/-- The entries change places. -/
theorem Orderly.rearrange {w : World} (hw : w.Orderly) (entries : List (Nat × Handle)) :
    (w.step (.rearrange entries)).Orderly := by
  simp only [step]
  split
  case isFalse => exact hw
  case isTrue hperm =>
    have hp : (entries.map Prod.snd).Perm w.registry.handles :=
      (List.isPerm_iff.mp hperm).map Prod.snd
    exact ⟨hw.fits, fun h hh => hw.registered h (hp.mem_iff.mp hh), hw.named,
      hp.nodup_iff.mpr hw.nodup, fun c hc h hm hh => hw.unregistered c hc h hm (hp.mem_iff.mp hh),
      hw.unique⟩

/-! A call does its next part -/

section Part

variable {w : World} {k : Nat} {c : Call} {p : Part} {ps : List Part}

theorem getElem?_calls_step_part (hc : w.calls[k]? = some ⟨c, p :: ps⟩) {i : Nat} {d : Ongoing}
    (hd : (w.step (.part k)).calls[i]? = some d) :
    (i = k ∧ d = Ongoing.proceed w.registry ⟨c, p :: ps⟩) ∨ (i ≠ k ∧ w.calls[i]? = some d) := by
  rw [calls_step_part (next?_eq_some_iff.mpr ⟨c, ps, hc⟩), List.getElem?_modify] at hd
  by_cases hi : k = i
  · subst hi
    rw [hc] at hd
    exact .inl ⟨rfl, by simpa using hd.symm⟩
  · exact .inr ⟨fun h => hi h.symm, by simpa [hi] using hd⟩

theorem mem_calls_step_part (hc : w.calls[k]? = some ⟨c, p :: ps⟩) {d : Ongoing}
    (hd : d ∈ (w.step (.part k)).calls) :
    d = Ongoing.proceed w.registry ⟨c, p :: ps⟩ ∨ d ∈ w.calls := by
  obtain ⟨i, hi⟩ := List.mem_iff_getElem?.mp hd
  exact (getElem?_calls_step_part hc hi).imp And.right fun h => List.mem_of_getElem? h.2

/-- What is on the register after a part was there before, or has just been entered. -/
theorem mem_entries_perform {e : Nat × Handle} {r : Registry} (he : e ∈ (p.perform r).entries) :
    e ∈ r.entries ∨ p = .enter e.1 e.2 := by
  cases p with
  | enter id g =>
    rcases List.mem_append.mp he with he | he
    · exact .inl he
    · cases List.mem_singleton.mp he
      exact .inr rfl
  | take id => exact .inl (List.mem_filter.mp he).1
  | issue | build | start | spawn | stop | copy => exact .inl he

theorem mem_handles_perform {h : Handle} {r : Registry} (hh : h ∈ (p.perform r).handles) :
    h ∈ r.handles ∨ ∃ id, p = .enter id h := by
  obtain ⟨e, he, rfl⟩ := List.mem_map.mp hh
  rcases mem_entries_perform he with he | hp
  · exact .inl (List.mem_map_of_mem he)
  · exact .inr ⟨e.1, hp⟩

/-- A query that polls is made. -/
theorem polls_build (hc : w.calls[k]? = some ⟨c, p :: ps⟩) (hb : p.BuildsPolling) :
    (w.step (.part k)).Polls w.registry.queries.length := by
  cases p with
  | build id e f o enters =>
    refine ⟨.fresh id w.registry.client e f o, ?_, hb⟩
    rw [query?, registry_step_part (next?_eq_some_iff.mpr ⟨c, ps, hc⟩)]
    simp [Part.perform]
  | issue | enter | start | spawn | stop | copy | take => cases hb

/-- What a call makes after its part, it has made before, or it is the query that has just come. -/
theorem Orderly.makes_step (hw : w.Orderly) (hc : w.calls[k]? = some ⟨c, p :: ps⟩) {i : Nat}
    {d : Ongoing} {h : Handle} (hd : (w.step (.part k)).calls[i]? = some d) (hm : d.Makes h) :
    (∃ d₀, w.calls[i]? = some d₀ ∧ d₀.Makes h) ∨
      (i = k ∧ p.BuildsPolling ∧ h = w.registry.queries.length) := by
  rcases getElem?_calls_step_part hc hd with ⟨rfl, rfl⟩ | ⟨-, hd⟩
  · have hfits := hw.fits _ (List.mem_of_getElem? hc)
    exact (Ongoing.makes_proceed hfits hm).imp (fun hm => ⟨_, hc, hm⟩) fun hb => ⟨rfl, hb⟩
  · exact .inl ⟨d, hd, hm⟩

theorem Orderly.makes_lt_length (hw : w.Orderly) {i : Nat} {d : Ongoing} {h : Handle}
    (hd : w.calls[i]? = some d) (hm : d.Makes h) : h < w.registry.queries.length :=
  (hw.named d (List.mem_of_getElem? hd) h hm.named).lt_length

/-- A call does its next part. -/
theorem Orderly.part (hw : w.Orderly) (hc : w.calls[k]? = some ⟨c, p :: ps⟩) :
    (w.step (.part k)).Orderly := by
  have hreg := registry_step_part (next?_eq_some_iff.mpr ⟨c, ps, hc⟩)
  have hmem := List.mem_of_getElem? hc
  constructor
  case fits =>
    intro d hd
    rcases mem_calls_step_part hc hd with rfl | hd
    · exact Ongoing.fits_proceed (hw.fits _ hmem)
    · exact hw.fits d hd
  case registered =>
    intro h hh
    rw [hreg] at hh
    rcases mem_handles_perform hh with hh | ⟨id, rfl⟩
    · exact polls_step (hw.registered h hh) _
    · exact polls_step (hw.named _ hmem h (.inr ⟨id, List.mem_cons_self ..⟩)) _
  case named =>
    intro d hd h hn
    rcases mem_calls_step_part hc hd with rfl | hd
    · rcases hn with hm | ⟨id, hm⟩
      · rcases Ongoing.start_mem_proceed hm with hm | ⟨-, hh⟩ | ⟨hb, rfl⟩
        · exact polls_step (hw.named _ hmem h (.inl hm)) _
        · exact polls_step (hw.registered h hh) _
        · exact polls_build hc hb
      · rcases Ongoing.enter_mem_proceed hm with hm | ⟨hb, rfl⟩
        · exact polls_step (hw.named _ hmem h (.inr ⟨id, hm⟩)) _
        · exact polls_build hc hb
    · exact polls_step (hw.named d hd h hn) _
  case nodup =>
    rw [hreg]
    cases p with
    | enter id g =>
      have hg := hw.unregistered _ hmem g (.inl ⟨id, List.mem_cons_self ..⟩)
      simp only [Part.perform, Registry.handles, List.map_append, List.map_cons, List.map_nil]
      exact List.nodup_append.mpr ⟨hw.nodup, by simp, by
        intro a ha b hb hab
        cases List.mem_singleton.mp hb
        exact hg (hab ▸ ha)⟩
    | take id => exact hw.nodup.sublist (List.filter_sublist.map Prod.snd)
    | issue | build | start | spawn | stop | copy => exact hw.nodup
  case unregistered =>
    intro d hd h hm hh
    obtain ⟨i, hi⟩ := List.mem_iff_getElem?.mp hd
    rw [hreg] at hh
    rcases mem_handles_perform hh with hh | ⟨id, rfl⟩
    · rcases hw.makes_step hc hi hm with ⟨d₀, hd₀, hm₀⟩ | ⟨-, -, rfl⟩
      · exact hw.unregistered d₀ (List.mem_of_getElem? hd₀) h hm₀ hh
      · exact absurd (hw.registered _ hh).lt_length (Nat.lt_irrefl _)
    -- The query has just been entered: no other call made it, and this one does so no more.
    · rcases getElem?_calls_step_part hc hi with ⟨-, rfl⟩ | ⟨hik, hi⟩
      · exact Ongoing.not_makes_proceed_enter (hw.fits _ hmem) h hm
      · exact hik (hw.unique i k d _ h hi hc hm (.inl ⟨id, List.mem_cons_self ..⟩))
  case unique =>
    intro i j d d' h hi hj hd hd'
    rcases hw.makes_step hc hi hd with ⟨d₀, hd₀, hm₀⟩ | ⟨rfl, -, rfl⟩
    · rcases hw.makes_step hc hj hd' with ⟨d₀', hd₀', hm₀'⟩ | ⟨rfl, -, rfl⟩
      · exact hw.unique i j d₀ d₀' h hd₀ hd₀' hm₀ hm₀'
      · exact absurd (hw.makes_lt_length hd₀ hm₀) (Nat.lt_irrefl _)
    · rcases hw.makes_step hc hj hd' with ⟨d₀', hd₀', hm₀'⟩ | ⟨rfl, -, -⟩
      · exact absurd (hw.makes_lt_length hd₀' hm₀') (Nat.lt_irrefl _)
      · rfl

end Part

theorem Orderly.step {w : World} (hw : w.Orderly) (s : Step) : (w.step s).Orderly := by
  cases s with
  | move h m =>
    exact ⟨hw.fits, fun g hg => polls_step (hw.registered g hg) _,
      fun c hc g hn => polls_step (hw.named c hc g hn) _, hw.nodup, hw.unregistered, hw.unique⟩
  | call c => exact hw.call c
  | part k =>
    cases hk : w.next? k with
    | none => simpa only [World.step, hk] using hw
    | some p =>
      obtain ⟨c, ps, hc⟩ := next?_eq_some_iff.mp hk
      exact hw.part hc
  | rearrange entries => exact hw.rearrange entries

theorem Orderly.run {w : World} (hw : w.Orderly) (ss : List Step) : (w.run ss).Orderly := by
  induction ss generalizing w with
  | nil => exact hw
  | cons s ss ih => exact ih (hw.step s)

/-- Every reachable world is orderly. -/
theorem orderly_run_start (client : Client) (ss : List Step) : ((start client).run ss).Orderly :=
  (orderly_start client).run ss

end World

end LiveQuery
