import SurfaceReuse.Proofs.CustodyMoves
import SurfaceReuse.Proofs.Hooks

set_option autoImplicit false

/-!
Every surface that exists has exactly one owner, in every state that a process can reach, whatever
foreign code does and however many pools came and went.
-/

namespace SurfaceReuse

variable {φ : Type}

/-- The surfaces are those that exist, each of them once. -/
def InBooks (xs : List Surface) (d : Device φ) (_ : BufferId) : Prop :=
  (xs.map fun x => x.serial).Perm d.alive ∧ d.alive.Nodup ∧ ∀ n ∈ d.alive, n ≤ d.built

theorem inBooks_perm {xs ys : List Surface} {d : Device φ} {id : BufferId}
    (hp : (xs.map fun x => x.serial).Perm (ys.map fun x => x.serial)) (h : InBooks xs d id) :
    InBooks ys d id :=
  ⟨hp.symm.trans h.1, h.2⟩

theorem inBooks_release {x : Surface} {xs : List Surface} {d : Device φ} {id : BufferId}
    (h : InBooks (x :: xs) d id) : InBooks xs (d.release x) id := by
  obtain ⟨hp, hn, hb⟩ := h
  refine ⟨?_, hn.erase _, fun n hm => hb n (List.mem_of_mem_erase hm)⟩
  have he := hp.erase x.serial
  rw [List.map_cons, List.erase_cons_head] at he
  exact he

theorem inBooks_build {xs : List Surface} {d : Device φ} (id id' : BufferId) (f : Features)
    (h : InBooks xs d id) : InBooks ((d.build f).1 :: xs) (d.build f).2 id' := by
  obtain ⟨hp, hn, hb⟩ := h
  refine ⟨hp.cons _, List.nodup_cons.mpr ⟨fun hm => ?_, hn⟩, fun n hm => ?_⟩
  · have := hb _ hm
    omega
  · rcases List.mem_cons.mp hm with rfl | hm
    · exact Nat.le_refl _
    · exact Nat.le_succ_of_le (hb n hm)

theorem inBooks_releaseAll (gone : List Surface) {xs : List Surface} {d : Device φ}
    {id : BufferId} (h : InBooks (gone ++ xs) d id) : InBooks xs (d.releaseAll gone) id := by
  induction gone generalizing d with
  | nil => exact h
  | cons x gone ih => exact ih (inBooks_release h)

theorem inBooks_custody [Allocator φ] : Custody (InBooks (φ := φ)) := by
  refine Custody.of_build (P := fun xs d => InBooks xs d .first) (fun hp h => ?_)
    (fun _ _ _ h => h) inBooks_release (inBooks_build _ _)
  refine inBooks_perm ?_ h
  have hs := hp.map Prod.fst
  rw [List.map_map, List.map_map] at hs
  exact hs

namespace System

/-- What every state has that a process can reach. -/
structure Sound (s : System φ) : Prop where
  books : s.Keeps InBooks []
  /-- A call in progress belongs to a pool. -/
  inUse : s.calls ≠ [] → s.current.isSome = true
  generation : ∀ o, s.current = some o → o.generation = s.opened
  numbered : s.Numbered

def available (s : System φ) : List Surface :=
  s.current.elim [] fun o => o.pool.available

def parked (s : System φ) : List Surface :=
  s.current.elim [] fun o => o.pool.pending.values

theorem pooled_eq (s : System φ) : s.pooled = s.available ++ s.parked := by
  unfold pooled available parked
  cases s.current <;> rfl

variable {s : System φ}

theorem Sound.alive_perm (h : s.Sound) :
    (s.owned.map Surface.serial).Perm s.device.alive :=
  h.books.1

theorem Sound.alive_nodup (h : s.Sound) : s.device.alive.Nodup :=
  h.books.2.1

theorem Sound.nodup (h : s.Sound) : (s.owned.map Surface.serial).Nodup :=
  h.alive_perm.nodup_iff.mpr h.alive_nodup

theorem Sound.mem_alive (h : s.Sound) {x : Surface} (hx : x ∈ s.owned) :
    x.serial ∈ s.device.alive :=
  h.alive_perm.mem_iff.mp (List.mem_map_of_mem hx)

theorem Sound.serial_le (h : s.Sound) {x : Surface} (hx : x ∈ s.owned) :
    x.serial ≤ s.device.built :=
  h.books.2.2 _ (h.mem_alive hx)

theorem mem_owned_of_held {x : Surface} (hx : x ∈ s.held) : x ∈ s.owned :=
  List.mem_append_left _ (List.mem_append_left _ hx)

theorem mem_owned_of_call {x : Surface} (hx : x ∈ s.calls.map Call.surface) : x ∈ s.owned :=
  List.mem_append_left _ (List.mem_append_right _ hx)

theorem mem_owned_of_pooled {x : Surface} (hx : x ∈ s.pooled) : x ∈ s.owned :=
  List.mem_append_right _ hx

theorem owned_perm (s : System φ) :
    s.owned.Perm ((s.held ++ s.available) ++ (s.calls.map Call.surface ++ s.parked)) := by
  unfold owned
  rw [pooled_eq, List.append_assoc, List.append_assoc]
  exact (List.perm_append_comm_assoc _ _ _).append_left s.held

theorem Sound.apart (h : s.Sound) {x y : Surface} (hx : x ∈ s.held ++ s.available)
    (hy : y ∈ s.calls.map Call.surface ++ s.parked) : x.serial ≠ y.serial := by
  have hn := ((s.owned_perm.map Surface.serial).nodup_iff).mp h.nodup
  rw [List.map_append, List.nodup_append] at hn
  exact hn.2.2 _ (List.mem_map_of_mem hx) _ (List.mem_map_of_mem hy)

theorem Sound.call_apart (h : s.Sound) {c : Call} (hc : c ∈ s.calls) {y : Surface}
    (hy : y ∈ s.parked) : c.surface.serial ≠ y.serial := by
  have hn := ((s.owned_perm.map Surface.serial).nodup_iff).mp h.nodup
  rw [List.map_append, List.nodup_append] at hn
  have hpool := hn.2.1
  rw [List.map_append, List.nodup_append] at hpool
  exact hpool.2.2 _ (List.mem_map_of_mem (List.mem_map_of_mem hc)) _ (List.mem_map_of_mem hy)

theorem Sound.calls_nodup (h : s.Sound) : (s.calls.map fun c => c.surface.serial).Nodup := by
  have hn := h.nodup
  unfold owned at hn
  rw [List.map_append, List.map_append, List.nodup_append] at hn
  have hcalls := (List.nodup_append.mp hn.1).2.1
  rw [List.map_map] at hcalls
  exact hcalls

theorem books_touch (serial : Nat) (change : Features → Features) (h : s.Keeps InBooks []) :
    (s.touch serial change).Keeps InBooks [] := by
  unfold Keeps
  rw [List.nil_append, owned_touch]
  refine inBooks_perm (List.Perm.of_eq ?_) h
  rw [List.nil_append, List.map_map]
  exact List.map_congr_left fun x _ => (Surface.touch_serial serial change x).symm

theorem books_released (h : s.Keeps InBooks []) (id : BufferId) :
    InBooks (s.held ++ s.calls.map Call.surface) (s.device.releaseAll s.pooled) id :=
  inBooks_releaseAll s.pooled (inBooks_perm (List.perm_append_comm.map _) h)

theorem books_close (h : s.Keeps InBooks []) : s.close.Keeps InBooks [] := by
  obtain ⟨journal, hc⟩ := s.close_eq
  have hr := books_released h .first
  rw [hc]
  unfold Keeps owned
  rw [List.nil_append]
  change InBooks (_ ++ []) _ _
  rw [List.append_nil]
  exact hr

theorem books_reopened (h : s.Keeps InBooks []) (config : Config) (journal : Log.Journal) :
    (s.reopened config journal).Keeps InBooks [] := by
  have hr := books_released h .first
  unfold Keeps owned
  rw [List.nil_append]
  change InBooks (_ ++ []) _ _
  rw [List.append_nil]
  exact hr

variable [Allocator φ]

theorem books_build (f : Features) (h : s.Keeps InBooks []) : (s.build f).2.Keeps InBooks [] :=
  keeps_hold inBooks_custody _ (inBooks_build s.nextId _ f h)

theorem calls_step_of_none (hn : s.current = none) (hc : s.calls = []) (m : Move φ)
    (stays : m.staysOpen = true) : (s.step m).2.calls = [] := by
  cases m with
  | openPool config => exact absurd stays (by simp [Move.staysOpen])
  | closePool => exact absurd stays (by simp [Move.staysOpen])
  | acquire size => simp [step, acquire, locked, hn, hc]
  | flushed ok => simp [step, flushed, hc]
  | submit serial => simp [step, submit, hn, hc]
  | registered => simp [step, registered, hc]
  | unwind => simp [step, unwind, hc]
  | fire hook =>
    rcases s.fire_cases hook with h | ⟨h, -, -, hf⟩
    · simp [step, h, hc]
    · simp [step, hf, deliver, hn, hc]
  | collect => simp [step, perform, locked, hn, hc]
  | shrink => simp [step, perform, locked, hn, hc]
  | report => simp [step, locked, hn, hc]
  | lastReport | availableCount | pendingCount | cachedBytes | isPending id => exact hc
  | drop serial =>
    simp only [step, drop]
    split
    · exact hc
    · rename_i x t ht
      obtain ⟨-, -, rfl⟩ := takeHeld_eq_some ht
      exact hc
  | build features => exact hc
  | touch serial change => simp [step, touch, hc]
  | adjust change => exact hc
  | reportUsage usage => exact hc

theorem Sound.step_open (h : s.Sound) (m : Move φ) (stays : m.staysOpen = true) :
    (s.step m).2.Sound := by
  obtain ⟨hopened, hgen⟩ := s.generation_step m stays
  have hsome : (s.step m).2.current.isSome = s.current.isSome := by
    rw [← Option.isSome_map, hgen, Option.isSome_map]
  refine ⟨?_, ?_, ?_, h.numbered.step h.generation m stays⟩
  · exact keeps_step inBooks_custody m stays h.inUse (fun f _ => books_build f h.books)
      (fun serial change _ => books_touch serial change h.books) h.books
  · intro hc
    rw [hsome]
    cases hs : s.current with
    | some o => rfl
    | none =>
      have hcalls : s.calls = [] := by
        by_contra hne
        exact absurd (h.inUse hne) (by simp [hs])
      exact absurd (calls_step_of_none hs hcalls m stays) hc
  · intro o ho
    rw [hopened]
    rw [ho, Option.map_some] at hgen
    obtain ⟨o', ho', hg⟩ := Option.map_eq_some_iff.mp hgen.symm
    exact hg.symm.trans (h.generation o' ho')

omit [Allocator φ] in
theorem Sound.close (h : s.Sound) (hcalls : s.calls = []) : s.close.Sound := by
  have hb := books_close h.books
  obtain ⟨journal, hc⟩ := s.close_eq
  rw [hc] at hb ⊢
  exact ⟨hb, fun hne => absurd hcalls hne, fun o ho => absurd ho (by simp), h.numbered.nodup,
    h.numbered.number_le, h.numbered.generation_le⟩

theorem Sound.step (h : s.Sound) (m : Move φ) : (s.step m).2.Sound := by
  cases hs : m.staysOpen with
  | true => exact h.step_open m hs
  | false =>
    cases m with
    | openPool config =>
      change (s.openPool config).2.Sound
      rcases s.openPool_cases config with ⟨-, he⟩ | ⟨journal, hc, -, he⟩
      · rw [he]
        exact h
      · rw [he]
        refine ⟨books_reopened h.books _ _, fun _ => rfl, ?_, h.numbered.nodup,
          h.numbered.number_le, fun k hk => Nat.le_succ_of_le (h.numbered.generation_le k hk)⟩
        intro o ho
        obtain rfl := Option.some.inj ho
        rfl
    | closePool =>
      change (s.closePool).2.Sound
      unfold closePool
      split
      · rename_i hc
        exact h.close (List.isEmpty_iff.mp (Bool.and_eq_true_iff.mp hc).1)
      · exact h
    | _ => exact absurd hs (by simp [Move.staysOpen])

theorem Reachable.sound (h : s.Reachable) : s.Sound := by
  induction h with
  | start allocator usage journal =>
    refine ⟨⟨List.Perm.refl _, List.nodup_nil, ?_⟩, ?_, ?_, List.nodup_nil, ?_, ?_⟩
    all_goals simp
  | step _ m ih => exact ih.step m

/-- Nothing that existed is built again. -/
def Grown (built : Nat) (alive : List Nat) (d : Device φ) : Prop :=
  built ≤ d.built ∧ ∀ n ∈ d.alive, n ≤ built → n ∈ alive

omit [Allocator φ] in
theorem grown_build {built : Nat} {alive : List Nat} {d : Device φ} (f : Features)
    (h : Grown built alive d) : Grown built alive (d.build f).2 := by
  refine ⟨Nat.le_succ_of_le h.1, fun n hm hle => ?_⟩
  rcases List.mem_cons.mp hm with rfl | hm
  · exact absurd hle (Nat.not_le_of_lt (Nat.lt_succ_of_le h.1))
  · exact h.2 n hm hle

theorem grown_custody (built : Nat) (alive : List Nat) :
    Custody fun (_ : List Surface) (d : Device φ) (_ : BufferId) => Grown built alive d :=
  Custody.of_build (fun _ h => h) (fun _ _ _ h => h)
    (fun h => ⟨h.1, fun n hm => h.2 n (List.mem_of_mem_erase hm)⟩) grown_build

theorem Sound.grown_step (h : s.Sound) (m : Move φ) (stays : m.staysOpen = true) :
    Grown s.device.built s.device.alive (s.step m).2.device := by
  have hs : Grown s.device.built s.device.alive s.device := ⟨Nat.le_refl _, fun _ hm _ => hm⟩
  exact keeps_step (grown_custody s.device.built s.device.alive) m stays h.inUse
    (fun f _ => grown_build f hs) (fun _ _ _ => hs) hs

end System

namespace Life

variable [Allocator φ] {law : List (Moment φ) → Moment φ → Prop} {past : List (Moment φ)}
  {s : System φ}

theorem reachable (life : Life law past s) : s.Reachable := by
  induction life with
  | opened config hs ok => exact hs.step _
  | move _ m _ _ ih => exact ih.step m

theorem sound (life : Life law past s) : s.Sound :=
  life.reachable.sound

theorem opening {config : Option Config} (ok : (s.step (.openPool config)).1 = .done) :
    s.calls = [] ∧ (config.getD {}).fault? = none ∧ ∃ journal,
      (s.step (.openPool config)).2 = s.reopened (config.getD {}) journal := by
  rcases s.openPool_cases config with ⟨hne, -⟩ | ⟨journal, hc, hfault, he⟩
  · exact absurd ok hne
  · exact ⟨hc, hfault, journal, congrArg Prod.snd he⟩

theorem current (life : Life law past s) : ∃ o, s.current = some o := by
  induction life with
  | opened config hs ok =>
    obtain ⟨-, -, journal, he⟩ := opening ok
    rw [he]
    exact ⟨_, rfl⟩
  | @move _ s _ m stays _ ih =>
    obtain ⟨o, ho⟩ := ih
    obtain ⟨-, hgen⟩ := s.generation_step m stays
    rw [ho] at hgen
    obtain ⟨o', ho', -⟩ := Option.map_eq_some_iff.mp hgen
    exact ⟨o', ho'⟩

end Life

end SurfaceReuse
