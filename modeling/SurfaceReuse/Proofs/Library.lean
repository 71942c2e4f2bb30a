import SurfaceReuse.Log.Console
import SurfaceReuse.Proofs.Journal

set_option autoImplicit false

/-!
What a process relies on of its logging library, and what becomes of its journal then. One
subscriber can be installed, and from then on the events of its level and above are written.
-/

namespace SurfaceReuse

namespace Log

theorem Event.target_below (e : Event) : ∃ rest, e.target = poolTarget ++ rest := by
  cases e with
  | reported => exact ⟨"::stats", rfl⟩
  | _ => exact ⟨"", String.append_empty.symm⟩

/-- What the library is documented to do in a process whose environment names no filter. -/
structure Library.Documented (lib : Library) : Prop where
  unnamed : lib.environment = none
  /-- A subscriber can be installed as long as none was. -/
  accepts_iff (installed : List Subscriber) (x : Subscriber) :
    lib.accepts installed x = true ↔ installed = []
  unheard (target : String) (level : Level) : lib.writes [] target level = false
  parses (least : Level) :
    (lib.filterOf? (poolTarget ++ "=" ++ lib.spell (.atLeast least))).isSome = true
  /-- A directive lets its own level and those above through, on all targets that begin with its
      own. -/
  filters {least : Level} {filter : String} :
    lib.filterOf? (poolTarget ++ "=" ++ lib.spell (.atLeast least)) = some filter →
      ∀ (ansi : Bool) (rest : String) (level : Level),
        lib.writes [⟨filter, ansi⟩] (poolTarget ++ rest) level =
          decide (least.severity ≤ level.severity)

variable {lib : Library}

theorem Library.Documented.filterFor_eq (documented : lib.Documented) {l : Logging}
    (h : l.enabled = true) :
    lib.filterOf? (poolTarget ++ "=" ++ lib.spell (.atLeast l.level)) = some (lib.filterFor l) := by
  obtain ⟨filter, hfilter⟩ := Option.isSome_iff_exists.mp (documented.parses l.level)
  unfold filterFor
  dsimp only
  rw [documented.unnamed, h, if_pos rfl, hfilter]
  rfl

/-- With its own subscriber alone, a process that logs has all its events of that level and above
    written. -/
theorem Library.Documented.writes_event (documented : lib.Documented) {l : Logging}
    (h : l.enabled = true) (e : Event) :
    lib.writes [lib.subscriberFor l] e.target e.level =
      decide (l.level.severity ≤ e.level.severity) := by
  obtain ⟨rest, hrest⟩ := e.target_below
  rw [hrest]
  exact documented.filters (documented.filterFor_eq h) l.ansi rest e.level

theorem Filter.ofText?_toString (least : Level) :
    ofText? (toString (⟨.atLeast least⟩ : Filter)) = some ⟨.atLeast least⟩ := by
  cases least <;> decide

theorem console_documented : (Library.console none).Documented where
  unnamed := rfl
  accepts_iff _ _ := List.isEmpty_iff
  unheard _ _ := rfl
  parses least := by cases least <;> decide
  filters {least filter} hfilter ansi rest level := by
    have htext : filter = toString (⟨.atLeast least⟩ : Filter) := by
      change (Filter.ofText? (toString (⟨.atLeast least⟩ : Filter))).map toString = some filter
        at hfilter
      rw [Filter.ofText?_toString] at hfilter
      exact (Option.some.inj hfilter).symm
    have hprefix : poolTarget.toList.isPrefixOf (poolTarget ++ rest).toList = true := by
      rw [List.isPrefixOf_iff_prefix, String.toList_append]
      exact List.prefix_append _ _
    simp only [Library.console, List.any_cons, List.any_nil, Bool.or_false, hprefix, htext,
      Filter.ofText?_toString, Bool.true_and, Option.any_some]
    rfl

namespace Journal

/-- The events so far, newest first. -/
def events (j : Journal) : List Event :=
  j.entries.map Entry.event

theorem events_foldl (j : Journal) (events : List Event) :
    (events.foldl emit j).events = events.reverse ++ j.events := by
  rw [foldl_emit]
  simp [Journal.events, entry, Function.comp_def]

theorem written_foldl (j : Journal) (events : List Event) :
    (events.foldl emit j).written =
      events.reverse.filter (fun e => (j.entry e).written) ++ j.written := by
  rw [foldl_emit]
  simp [written, List.filter_map, Function.comp_def, ← List.map_reverse, entry]

/-- Some events were added to the journal, and nothing else. -/
def Grows (j j' : Journal) : Prop :=
  j.Gains (fun _ => True) j'

theorem Quiet.grows {j j' : Journal} (h : j.Quiet j') : j.Grows j' :=
  h.mono fun _ _ => trivial

theorem Grows.library {j j' : Journal} (h : j.Grows j') : j'.library = j.library := by
  obtain ⟨events, -, rfl⟩ := h
  rw [foldl_emit]

theorem Grows.installed {j j' : Journal} (h : j.Grows j') : j'.installed = j.installed := by
  obtain ⟨events, -, rfl⟩ := h
  rw [foldl_emit]

/-- The journal after somebody may have asked for a subscriber. -/
def asked (j : Journal) (l : Option Logging) : Journal :=
  l.elim j fun l => (j.install l).2

theorem asked_library (j : Journal) (l : Option Logging) : (j.asked l).library = j.library := by
  cases l with
  | none => rfl
  | some l =>
    change (j.install l).2.library = _
    unfold install
    dsimp only
    split <;> rfl

theorem install_disabled (j : Journal) {l : Logging} (h : l.enabled = false) :
    j.install l = (false, j) := by
  unfold install
  rw [h]
  rfl

section Documented

variable {j : Journal} (documented : j.library.Documented)
include documented

theorem install_taken (h : j.installed ≠ []) (l : Logging) : j.install l = (false, j) := by
  have hno : j.library.accepts j.installed (j.library.subscriberFor l) = false :=
    Bool.eq_false_iff.mpr (mt (documented.accepts_iff _ _).mp h)
  unfold install
  dsimp only
  rw [hno, Bool.and_false]
  rfl

theorem install_first (h : j.installed = []) {l : Logging} (hl : l.enabled = true) :
    j.install l = (true, emit { j with installed := [j.library.subscriberFor l] }
      (.initialized l.level)) := by
  unfold install
  dsimp only
  rw [hl, (documented.accepts_iff _ _).mpr h, h]
  rfl

theorem install_fst (l : Logging) : (j.install l).1 = (l.enabled && j.installed.isEmpty) := by
  cases hl : l.enabled with
  | false => rw [j.install_disabled hl, Bool.false_and]
  | true =>
    cases hj : j.installed with
    | nil => rw [install_first documented hj hl]; rfl
    | cons => rw [install_taken documented (hj ▸ List.cons_ne_nil _ _)]; rfl

theorem asked_taken (h : j.installed ≠ []) (l : Option Logging) : j.asked l = j := by
  cases l with
  | none => rfl
  | some l => exact congrArg Prod.snd (install_taken documented h l)

end Documented

end Journal

end Log

end SurfaceReuse
