import SurfaceReuse.Proofs.Acquisition
import SurfaceReuse.Proofs.CacheBound
import SurfaceReuse.Proofs.Library
import SurfaceReuse.Startup

set_option autoImplicit false

/-!
The subscriber of a process whose logging library does what it is documented to do. The first call
that asks for a subscriber installs it, and no later call changes it. What calls answer does not
depend on it, apart from the question whether they installed it.
-/

namespace SurfaceReuse

open Log

namespace System

variable {φ : Type}

theorem grows_close (s : System φ) : s.journal.Grows s.close.journal := by
  unfold close
  split
  · exact .refl _
  · dsimp only
    split
    · exact .refl _
    · exact .emit _ trivial

theorem replacePool_allocator (s : System φ) (config : Config) :
    (s.replacePool config).device.allocator = s.device.allocator := by
  obtain ⟨journal, h⟩ := s.replacePool_eq config
  rw [h]
  change (s.device.releaseAll s.pooled).allocator = _
  rw [s.device.releaseAll_eq]

theorem grows_startLogging (s : System φ) (l : Logging) :
    (s.journal.asked (if l.enabled then some l else none)).Grows (s.startLogging l).journal := by
  unfold startLogging
  split
  · dsimp only [Journal.asked, Option.elim_some]
    split
    · exact .refl _
    · exact .emit _ trivial
  · exact .refl _

end System

/-- Whether a pool can be opened with the configuration. -/
def Config.accepted (c : Config) : Bool :=
  decide (1 ≤ c.maxSurfaces ∧ c.maxSurfaces ≤ surfaceLimit ∧ 1 ≤ c.maxAge)

theorem Config.accepted_eq (c : Config) : c.accepted = c.fault?.isNone := by
  rw [Bool.eq_iff_iff, Option.isNone_iff_eq_none, c.fault?_eq_none_iff]
  exact decide_eq_true_iff

namespace Startup

variable {φ : Type}

/-- The settings for a subscriber that the call asks for, if it does. -/
def Call.logging? : Call φ → Option Logging
  | .install l => if l.enabled then some l else none
  | .openPool config _ _ _ =>
    if config.accepted && config.logging.enabled then some config.logging else none
  | .openDefault _ => none

theorem Call.enabled_of_asks {call : Call φ} {l : Logging} (h : call.logging? = some l) :
    l.enabled = true := by
  cases call with
  | install l' =>
    obtain ⟨hl, he⟩ := Option.ite_none_right_eq_some.mp h
    obtain rfl := Option.some.inj he
    exact hl
  | openPool config =>
    obtain ⟨hl, he⟩ := Option.ite_none_right_eq_some.mp h
    obtain rfl := Option.some.inj he
    exact (Bool.and_eq_true_iff.mp hl).2
  | openDefault => exact absurd h nofun

/-- What comes of an acquire from a pool without idle surfaces, by the answer of its allocator. -/
def acquired (size : Size) (ready : Option Bool) : SurfaceReuse.Answer → Answer
  | .refused => .failed (.creationFailed size)
  | .panicked => .nothing
  | .made features =>
    if features.valid then
      ready.elim .nothing fun ok =>
        if ok then .acquired features.id else .failed (.flushFailed features.id)
    else .failed (.invalidSurface size)

/-- The process has no call in progress, and its journal has grown from `j`. -/
structure Passed (j : Journal) (s : System φ) : Prop where
  idle : s.calls = []
  grows : j.Grows s.journal

theorem Passed.trans {j j' : Journal} {s : System φ} (h : j.Grows j') (hs : Passed j' s) :
    Passed j s :=
  ⟨hs.idle, h.trans hs.grows⟩

variable [Allocator φ] {s : System φ} {o : OpenPool} {j : Journal}

/-- What a call has to answer. `first` says that no subscriber was asked for before, and the
    allocator is the one that is there before the call. -/
def Call.due (first : Bool) (allocator : φ) : Call φ → Answer
  | .install l => .installed (l.enabled && first)
  | .openPool config size ready own =>
    match config.fault? with
    | some fault => .failed (.invalidConfig fault.message)
    | none => acquired size ready (Allocator.answer (own.getD allocator) size .first).1
  | .openDefault _ => .created 0

theorem Passed.closed (h : Passed j s) : Passed j (s.run [.closePool]) := by
  change Passed j s.closePool.2
  unfold System.closePool
  split
  · obtain ⟨journal, hclose⟩ := s.close_eq
    refine ⟨?_, h.grows.trans s.grows_close⟩
    rw [hclose]
    exact h.idle
  · exact h

theorem Passed.dropped (h : Passed j s) (serial : Nat) :
    Passed j (s.run [.drop serial, .closePool]) := by
  have hdrop : Passed j (s.drop serial).2 := by
    rcases s.drop_cases serial with hd | ⟨x, hd⟩
    all_goals
      rw [hd]
      exact ⟨h.idle, h.grows⟩
  exact hdrop.closed

theorem finish_passed {r : Reply × System φ} (h : Passed j r.2) : Passed j (finish r).2 := by
  obtain ⟨reply, s⟩ := r
  cases reply with
  | handed x => exact h.dropped x.serial
  | _ => exact h.closed

theorem flush_passed {x : Surface} {cached : Bool} (ho : s.current = some o)
    (hc : s.calls = [.flushing x cached]) (ready : Option Bool) :
    Passed s.journal (s.step (ready.elim .unwind .flushed)).2 := by
  cases ready with
  | none =>
    change Passed s.journal s.unwind.2
    unfold System.unwind
    rw [hc]
    exact ⟨rfl, .refl _⟩
  | some ok =>
    refine ⟨?_, (System.quiet_flushed ho ok).grows⟩
    change (s.flushed ok).2.calls = []
    rcases System.flushed_cases hc ho ok with ⟨-, h⟩ | ⟨-, -, h⟩ | ⟨-, -, -, h⟩ | ⟨-, -, -, h⟩
    all_goals
      rw [h]
      rfl

theorem fetch_passed (ho : s.current = some o) (hc : s.calls = []) (size : Size)
    (ready : Option Bool) : Passed s.journal (s.fetch size ready).2 := by
  have hgrows := (System.quiet_acquire ho size).grows
  rcases System.acquire_cases ho size with ⟨-, h⟩ | ⟨-, ⟨x, cached, -, h⟩ | ⟨error, -, h⟩ | ⟨-, h⟩⟩
  · rw [System.fetch_ended h nofun]
    rw [h] at hgrows
    exact ⟨hc, hgrows⟩
  · rw [System.fetch_entered h]
    rw [h] at hgrows
    have hcalls : SurfaceReuse.Call.flushing (x.withFeatures x.rested) cached :: s.calls =
        [.flushing (x.withFeatures x.rested) cached] := by rw [hc]
    exact .trans hgrows (flush_passed rfl hcalls ready)
  · rw [System.fetch_ended h nofun]
    rw [h] at hgrows
    exact ⟨hc, hgrows⟩
  · rw [System.fetch_ended h nofun]
    rw [h] at hgrows
    exact ⟨hc, hgrows⟩

theorem openPool_valid (hc : s.calls = []) {config : Config} (hf : config.fault? = none) :
    s.step (.openPool (some config)) =
      (.done, (s.startLogging config.logging).replacePool config) := by
  change s.openPool (some config) = _
  unfold System.openPool
  simp [hc, hf]

theorem openPool_invalid (hc : s.calls = []) {config : Config} {fault : Config.Fault}
    (hf : config.fault? = some fault) :
    s.step (.openPool (some config)) = (.failed (.invalidConfig fault.message), s) := by
  change s.openPool (some config) = _
  unfold System.openPool
  simp [hc, hf]

theorem openPool_default (hc : s.calls = []) :
    s.step (.openPool none) = (.done, s.replacePool {}) := by
  change s.openPool none = _
  unfold System.openPool
  rw [hc]
  rfl

omit [Allocator φ] in
theorem replacePool_passed (hc : s.calls = []) (config : Config) :
    Passed s.journal (s.replacePool config) := by
  obtain ⟨journal, h⟩ := s.replacePool_eq config
  refine ⟨?_, s.grows_close⟩
  rw [h]
  exact hc

/-- The journal has all of the call, and no call is in progress after it. -/
theorem answer_passed (hc : s.calls = []) (call : Call φ) :
    Passed (s.journal.asked call.logging?) (answer s call).2 := by
  cases call with
  | install l =>
    cases hl : l.enabled with
    | false =>
      refine ⟨hc, ?_⟩
      simp only [Call.logging?, hl, Bool.false_eq_true, if_false, answer]
      rw [Journal.install_disabled _ hl]
      exact .refl _
    | true =>
      refine ⟨hc, ?_⟩
      simp only [Call.logging?, hl, if_true, answer]
      exact .refl _
  | openPool config size ready own =>
    cases hf : config.fault? with
    | some fault =>
      simp only [Call.logging?, config.accepted_eq, answer, openPool_invalid hc hf, hf]
      exact ⟨hc, .refl _⟩
    | none =>
      simp only [Call.logging?, config.accepted_eq, answer, openPool_valid hc hf, hf]
      let t := (s.startLogging config.logging).replacePool config
      obtain ⟨journal, hstarted⟩ := s.startLogging_eq config.logging
      have hopened : Passed (s.startLogging config.logging).journal t :=
        replacePool_passed (by rw [hstarted]; exact hc) config
      have hacquired : Passed t.journal ((equip t own).fetch size ready).2 :=
        fetch_passed (s := equip t own) rfl hopened.idle size ready
      exact .trans ((s.grows_startLogging config.logging).trans hopened.grows)
        (finish_passed hacquired)
  | openDefault own =>
    let t := (equip s own).replacePool {}
    have hopened : Passed s.journal t := replacePool_passed (s := equip s own) hc {}
    have hrun : (equip s own).run [.openPool none] = t :=
      congrArg Prod.snd (openPool_default (s := equip s own) hc)
    simp only [Call.logging?, answer]
    rw [hrun, System.report_open (s := t) rfl rfl]
    refine Passed.closed ⟨hopened.idle, hopened.grows.trans ?_⟩
    exact .emit _ trivial

def acquireAnswer (ready : Option Bool) : Ending Surface → Answer
  | .ok x =>
    ready.elim .nothing fun ok => if ok then .acquired x.id else .failed (.flushFailed x.id)
  | .failed error => .failed error
  | .panicked => .nothing

omit [Allocator φ] in
theorem acquired_eq (size : Size) (ready : Option Bool) (given : SurfaceReuse.Answer)
    (serial : Nat) :
    acquired size ready given = acquireAnswer ready (given.ending size serial) := by
  cases given with
  | refused => rfl
  | panicked => rfl
  | made f => cases hv : f.valid <;> simp [acquired, acquireAnswer, Answer.ending, hv]

theorem flush_fresh {x : Surface} (ho : s.current = some o) (hc : s.calls = [.flushing x false])
    (ready : Option Bool) :
    (finish (s.step (ready.elim .unwind .flushed))).1 = acquireAnswer ready (.ok x) := by
  cases ready with
  | none =>
    change (finish s.unwind).1 = _
    unfold System.unwind
    rw [hc]
    rfl
  | some ok =>
    change (finish (s.flushed ok)).1 = _
    rcases System.flushed_cases hc ho ok with ⟨hok, h⟩ | ⟨hok, -, h⟩ | ⟨-, hno, -⟩ | ⟨-, hno, -⟩
    · rw [h, hok]
      rfl
    · rw [h, hok]
      rfl
    · exact absurd hno nofun
    · exact absurd hno nofun

/-- A pool without idle surfaces asks its allocator. -/
theorem fetch_fresh (ho : s.current = some o) (hp : o.poisoned = false) (hc : s.calls = [])
    (hidle : o.pool.available = []) (size : Size) (ready : Option Bool) :
    (finish (s.fetch size ready)).1 =
      acquired size ready (Allocator.answer s.device.allocator size o.pool.nextId).1 := by
  have hobtained : ((s.inside o).obtain size).1 =
      ((Allocator.answer s.device.allocator size o.pool.nextId).1.ending size
        (s.device.built + 1)).map fun x => (x, false) := by
    rw [Locked.obtain_new fun x hx => absurd (hidle ▸ hx) List.not_mem_nil,
      Locked.create_answered]
    rfl
  rw [acquired_eq _ _ _ (s.device.built + 1)]
  rcases System.acquire_cases ho size with
    ⟨hp', -⟩ | ⟨-, ⟨x, cached, he, h⟩ | ⟨error, he, h⟩ | ⟨he, h⟩⟩
  · exact absurd (hp.symm.trans hp') nofun
  · obtain ⟨y, hy, hsame⟩ := Ending.map_eq_ok.mp (hobtained.symm.trans he)
    obtain ⟨rfl, rfl⟩ := Prod.mk.inj hsame
    have hcalls : SurfaceReuse.Call.flushing (y.withFeatures y.rested) false :: s.calls =
        [.flushing (y.withFeatures y.rested) false] := by rw [hc]
    rw [System.fetch_entered h, hy]
    exact @flush_fresh _ _ _ _ (y.withFeatures y.rested) rfl hcalls ready
  · rw [System.fetch_ended h nofun, Ending.map_eq_failed.mp (hobtained.symm.trans he)]
    rfl
  · rw [System.fetch_ended h nofun, Ending.map_eq_panicked.mp (hobtained.symm.trans he)]
    rfl

theorem answer_due (documented : s.journal.library.Documented) (hc : s.calls = [])
    (call : Call φ) :
    (answer s call).1 = call.due s.journal.installed.isEmpty s.device.allocator := by
  cases call with
  | install l => exact congrArg Answer.installed (Journal.install_fst documented l)
  | openPool config size ready own =>
    cases hf : config.fault? with
    | some fault => simp only [Call.due, answer, openPool_invalid hc hf, hf]
    | none =>
      simp only [Call.due, answer, openPool_valid hc hf, hf]
      let t := (s.startLogging config.logging).replacePool config
      obtain ⟨journal, hstarted⟩ := s.startLogging_eq config.logging
      have hcalls : t.calls = [] :=
        (replacePool_passed (by rw [hstarted]; exact hc) config).idle
      have hallocator : t.device.allocator = s.device.allocator := by
        rw [System.replacePool_allocator, hstarted]
      have hanswer := fetch_fresh (s := equip t own) rfl rfl hcalls rfl size ready
      rw [← hallocator]
      exact hanswer
  | openDefault own =>
    have hrun : (equip s own).run [.openPool none] = (equip s own).replacePool {} :=
      congrArg Prod.snd (openPool_default (s := equip s own) hc)
    simp only [Call.due, answer]
    rw [hrun, System.report_open (s := (equip s own).replacePool {}) rfl rfl]
    rfl

def after (s : System φ) (calls : List (Call φ)) : System φ :=
  (answers s calls).2

theorem after_append (s : System φ) (before rest : List (Call φ)) :
    after s (before ++ rest) = after (after s before) rest := by
  induction before generalizing s with
  | nil => rfl
  | cons call before ih => exact ih (answer s call).2

theorem answers_at (s : System φ) (before : List (Call φ)) (call : Call φ)
    (rest : List (Call φ)) :
    (answers s (before ++ call :: rest)).1[before.length]? =
      some ((answer (after s before) call).1,
        !(after s (before ++ [call])).journal.installed.isEmpty) := by
  induction before generalizing s with
  | nil => rfl
  | cons first before ih => exact ih (answer s first).2

theorem after_idle (hc : s.calls = []) (calls : List (Call φ)) : (after s calls).calls = [] := by
  induction calls generalizing s with
  | nil => exact hc
  | cons call calls ih => exact ih (answer_passed hc call).idle

theorem answer_library (hc : s.calls = []) (call : Call φ) :
    (answer s call).2.journal.library = s.journal.library := by
  rw [(answer_passed hc call).grows.library, Journal.asked_library]

theorem after_library (hc : s.calls = []) (calls : List (Call φ)) :
    (after s calls).journal.library = s.journal.library := by
  induction calls generalizing s with
  | nil => rfl
  | cons call calls ih =>
    change (after (answer s call).2 calls).journal.library = _
    rw [ih (answer_passed hc call).idle, answer_library hc]

/-- Nothing happens to the journal but that events are added to it, if no call installs a
    subscriber. -/
theorem after_grows (documented : s.journal.library.Documented) (hc : s.calls = [])
    (calls : List (Call φ))
    (h : s.journal.installed ≠ [] ∨ calls.findSome? Call.logging? = none) :
    s.journal.Grows (after s calls).journal := by
  induction calls generalizing s with
  | nil => exact .refl _
  | cons call calls ih =>
    have hcall := answer_passed hc call
    have hasked : s.journal.asked call.logging? = s.journal := by
      rcases h with h | h
      · exact Journal.asked_taken documented h _
      · rw [List.findSome?_cons] at h
        cases hl : call.logging? with
        | none => rfl
        | some l => simp [hl] at h
    rw [hasked] at hcall
    refine hcall.grows.trans (ih (answer_library hc call ▸ documented) hcall.idle ?_)
    rw [hcall.grows.installed]
    refine h.imp_right fun h => ?_
    rw [List.findSome?_cons] at h
    split at h
    · exact absurd h nofun
    · exact h

/-- From the call on that installs the subscriber, the journal grows from that subscriber's first
    event. -/
theorem after_first (documented : s.journal.library.Documented) (hc : s.calls = [])
    (hs : s.journal.installed = []) {call : Call φ} {l : Logging} (hl : call.logging? = some l)
    (rest : List (Call φ)) :
    ∃ events : List Event, (after s (call :: rest)).journal =
      (.initialized l.level :: events).foldl Journal.emit
        { s.journal with installed := [s.journal.library.subscriberFor l] } := by
  have hcall := answer_passed hc call
  have hasked : s.journal.asked call.logging? = Journal.emit
      { s.journal with installed := [s.journal.library.subscriberFor l] }
      (.initialized l.level) := by
    rw [hl]
    exact congrArg Prod.snd (Journal.install_first documented hs (Call.enabled_of_asks hl))
  rw [hasked] at hcall
  have hthere : (answer s call).2.journal.installed ≠ [] := by
    rw [hcall.grows.installed]
    exact List.cons_ne_nil _ _
  obtain ⟨events, -, hj⟩ := hcall.grows.trans
    (after_grows (answer_library hc call ▸ documented) hcall.idle rest (.inl hthere))
  exact ⟨events, hj⟩

/-- If there is no subscriber, the first that is asked for comes. -/
theorem after_installed (documented : s.journal.library.Documented) (hc : s.calls = [])
    (hs : s.journal.installed = []) (calls : List (Call φ)) :
    (after s calls).journal.installed =
      ((calls.findSome? Call.logging?).map s.journal.library.subscriberFor).toList := by
  induction calls generalizing s with
  | nil => exact hs
  | cons call calls ih =>
    cases hl : call.logging? with
    | none =>
      have hcall := answer_passed hc call
      rw [hl] at hcall
      have hlibrary := answer_library hc call
      rw [List.findSome?_cons, hl, ← hlibrary]
      exact ih (hlibrary ▸ documented) hcall.idle (hcall.grows.installed.trans hs)
    | some l =>
      obtain ⟨events, hj⟩ := after_first documented hc hs hl calls
      rw [hj, Journal.foldl_emit, List.findSome?_cons, hl]
      rfl

section Documented

variable {lib : Library} (documented : lib.Documented) (allocator : φ)
include documented

theorem start_installed (calls : List (Call φ)) :
    (after (start lib allocator) calls).journal.installed =
      ((calls.findSome? Call.logging?).map lib.subscriberFor).toList :=
  after_installed (s := start lib allocator) documented rfl rfl calls

/-- Before anybody asks for a subscriber nothing is written. -/
theorem unasked_written {calls : List (Call φ)} (h : calls.findSome? Call.logging? = none) :
    (after (start lib allocator) calls).journal.written = [] := by
  obtain ⟨events, -, hj⟩ :=
    after_grows (s := start lib allocator) documented rfl calls (.inr h)
  rw [hj, Journal.written_foldl]
  simp [start, Journal.entry, Journal.written, documented.unheard]

/-- What is written are the events from the first one of the subscriber on that it lets through. -/
theorem installed_written {before : List (Call φ)} {call : Call φ} {l : Logging}
    (hbefore : before.findSome? Call.logging? = none) (hl : call.logging? = some l)
    (rest : List (Call φ)) :
    ∃ events, (after (start lib allocator) (before ++ call :: rest)).journal.events =
        events ++ (after (start lib allocator) before).journal.events ∧
      events.getLast? = some (.initialized l.level) ∧
      (after (start lib allocator) (before ++ call :: rest)).journal.written =
        events.filter (fun e => decide (l.level.severity ≤ e.level.severity)) := by
  let s := after (start lib allocator) before
  have hlibrary : s.journal.library = lib := after_library rfl before
  have hsame : s.journal.library.Documented := hlibrary ▸ documented
  have hnone : s.journal.installed = [] := by
    rw [start_installed documented, hbefore]
    rfl
  obtain ⟨events, hj⟩ := after_first (s := s) hsame (after_idle rfl before) hnone hl rest
  rw [after_append, hj, Journal.events_foldl, Journal.written_foldl]
  have hunheard : Journal.written
      { s.journal with installed := [s.journal.library.subscriberFor l] } = [] :=
    unasked_written documented allocator hbefore
  refine ⟨(Event.initialized l.level :: events).reverse, rfl, by simp, ?_⟩
  rw [hunheard, List.append_nil]
  exact List.filter_congr fun e _ => hsame.writes_event (Call.enabled_of_asks hl) e

end Documented

/-- In a process that starts without a subscriber, the first call that asks for one with settings
    that are enabled installs it, and neither the calls before nor those after it do. An invalid
    configuration asks for nothing. All answers are as if there were no logging, apart from
    whether a call installed the subscriber. What is written are the events from the one on that
    the subscriber starts with, as far as they are of its level or above. -/
theorem first_asker_installs {lib : Library} (documented : lib.Documented) (allocator : φ)
    (calls : List (Call φ)) :
    (∀ before call rest, calls = before ++ call :: rest →
        (record lib allocator calls).answers[before.length]? =
          some (call.due (before.findSome? Call.logging?).isNone
              (after (start lib allocator) before).device.allocator,
            ((before ++ [call]).findSome? Call.logging?).isSome)) ∧
      (calls.findSome? Call.logging? = none →
        (after (start lib allocator) calls).journal.installed = [] ∧
          (record lib allocator calls).lines = 0) ∧
      ∀ before call rest l, calls = before ++ call :: rest →
        before.findSome? Call.logging? = none → call.logging? = some l →
        (∃ filter, lib.filterOf? (poolTarget ++ "=" ++ lib.spell (.atLeast l.level)) = some filter ∧
          (after (start lib allocator) calls).journal.installed = [⟨filter, l.ansi⟩]) ∧
        ∃ events, (after (start lib allocator) calls).journal.events =
            events ++ (after (start lib allocator) before).journal.events ∧
          events.getLast? = some (.initialized l.level) ∧
          (after (start lib allocator) calls).journal.written =
            events.filter (fun e => decide (l.level.severity ≤ e.level.severity)) ∧
          (record lib allocator calls).lines =
            events.countP fun e => decide (l.level.severity ≤ e.level.severity) := by
  have hinstalled := start_installed documented allocator calls
  refine ⟨?answers, fun hnone => ⟨?nobody, ?silent⟩, ?first⟩
  case answers =>
    intro before call rest hcalls
    let s := after (start lib allocator) before
    have hidle : s.calls = [] := after_idle rfl before
    have hlibrary : s.journal.library = lib := after_library rfl before
    have hanswer := answer_due (s := s) (hlibrary ▸ documented) hidle call
    change (answers (start lib allocator) calls).1[before.length]? = _
    rw [hcalls, answers_at, hanswer, start_installed documented, start_installed documented]
    cases before.findSome? Call.logging? <;>
      cases (before ++ [call]).findSome? Call.logging? <;> rfl
  case nobody =>
    rw [hinstalled, hnone]
    rfl
  case silent => exact congrArg List.length (unasked_written documented allocator hnone)
  case first =>
    intro before call rest l hcalls hbefore hl
    have hfirst : calls.findSome? Call.logging? = some l := by
      rw [hcalls, List.findSome?_append, hbefore, List.findSome?_cons, hl]
      rfl
    rw [hfirst] at hinstalled
    obtain ⟨events, hevents, hstarts, hwritten⟩ :=
      installed_written documented allocator hbefore hl rest
    rw [← hcalls] at hevents hwritten
    refine ⟨⟨_, documented.filterFor_eq (Call.enabled_of_asks hl), hinstalled⟩, events, hevents,
      hstarts, hwritten, ?_⟩
    rw [List.countP_eq_length_filter]
    exact congrArg List.length hwritten

open Scenario in
/-- An invalid configuration asks for logging in vain, and a default pool is not heard. Then a
    subscriber for errors comes. The settings of the pool after it ask for more, and do not get
    it: of all its events only the failed flush is written. -/
theorem first_asker_installs_after_invalid :
    ∃ calls : List (Call Faults),
      (after (start .console {}) calls).journal.installed = [⟨"surface_pool=error", false⟩] ∧
      (record .console {} calls).answers[0]? =
        some (.failed (.invalidConfig Config.Fault.noSurfaces.message), false) ∧
      (record .console {} calls).answers[2]? = some (.installed true, true) ∧
      (record .console {} calls).answers[3]? = some (.failed (.flushFailed .first), true) ∧
      ∃ events : List Event, events.getLast? = some (.initialized .error) ∧
        (record .console {} calls).lines = 1 ∧
        events.countP (fun e => decide (Level.error.severity ≤ e.level.severity)) = 1 := by
  let before : List (Call Faults) :=
    [.openPool { maxSurfaces := 0, logging := { enabled := true } }, .openDefault]
  let asks : Call Faults := .install { enabled := true, level := .error }
  let calls : List (Call Faults) := before ++ [asks, .openPool .development ⟨8, 8⟩ (some false)]
  obtain ⟨hanswers, -, hwritten⟩ := first_asker_installs console_documented ({} : Faults) calls
  obtain ⟨⟨filter, hfilter, hinstalled⟩, events, -, hfirst, -, hlines⟩ :=
    hwritten before asks _ _ rfl rfl rfl
  obtain rfl : "surface_pool=error" = filter := Option.some.inj hfilter
  have hone : (record .console {} calls).lines = 1 := by decide
  exact ⟨calls, hinstalled, hanswers [] _ _ rfl, hanswers before asks _ rfl,
    hanswers (before ++ [asks]) _ [] rfl, events, hfirst, hone, hlines.symm.trans hone⟩

end Startup

end SurfaceReuse
