import SurfaceReuse.Proofs.Ownership

set_option autoImplicit false

/-!
Ids tell the surfaces of a pool apart. A pool asks for each surface under the next id, so as long
as ids do not run out, a new surface has an id that no surface of the pool ever had before.
-/

namespace SurfaceReuse

variable {φ : Type}

/-- A law on surfaces that looks at their keys alone, and at the largest id that was given out.
    Surfaces in `elsewhere` were not made for the pool; what their ids are is nobody's business. -/
structure IdLaw (elsewhere : List Nat) (L : List (Nat × BufferId) → Nat → Prop) : Prop where
  perm : ∀ {ks ks' : List (Nat × BufferId)} {c : Nat}, ks.Perm ks' → L ks c → L ks' c
  drop : ∀ {k : Nat × BufferId} {ks : List (Nat × BufferId)} {c : Nat}, L (k :: ks) c → L ks c
  spend : ∀ {ks : List (Nat × BufferId)} {c : Nat}, L ks c → L ks (c + 1)
  make : ∀ {k : Nat × BufferId} {ks : List (Nat × BufferId)} {c : Nat}, k.1 ∉ elsewhere →
    k.2.number.toNat = c + 1 → L ks c → L (k :: ks) (c + 1)

/-- The law holds as long as fewer than 2 ^ 64 surfaces were asked for since there were `asked`
    requests. -/
structure Issued (elsewhere : List Nat) (asked : Nat) (L : List (Nat × BufferId) → Nat → Prop)
    (xs : List Surface) (d : Device φ) (id : BufferId) : Prop where
  built : ∀ n ∈ elsewhere, n ≤ d.built
  asked_le : asked ≤ d.requests.length
  next : id.number.toNat = (d.requests.length - asked + 1) % UInt64.size
  law : d.requests.length - asked < UInt64.size → L (xs.map Surface.key) (d.requests.length - asked)

theorem request_requests [Allocator φ] (d : Device φ) (size : Size) (id : BufferId) :
    (d.request size id).2.requests.length = d.requests.length + 1 := by
  obtain ⟨allocator, r, ⟨-, hd⟩ | ⟨f, -, -, hd⟩⟩ := d.request_cases size id
  · rw [hd]
    rfl
  · rw [hd]
    rfl

theorem request_surfaces [Allocator φ] (hids : Allocator.KeepsIds φ) (d : Device φ) (size : Size)
    (id : BufferId) :
    ((d.request size id).1.surfaces = [] ∧ (d.request size id).2.built = d.built) ∨
    ∃ x : Surface, (d.request size id).1.surfaces = [x] ∧ x.key = (d.built + 1, id) ∧
      (d.request size id).2.built = d.built + 1 := by
  obtain ⟨allocator, r, ⟨hs, hd⟩ | ⟨f, hf, hs, hd⟩⟩ := d.request_cases size id
  · exact .inl ⟨hs, by rw [hd]⟩
  · have hid : f.id = id := hids d.allocator size id f hf
    exact .inr ⟨_, hs, congrArg (Prod.mk (d.built + 1)) hid, by rw [hd]; rfl⟩

theorem IdLaw.custody [Allocator φ] (hids : Allocator.KeepsIds φ) {elsewhere : List Nat}
    {asked : Nat} {L : List (Nat × BufferId) → Nat → Prop} (law : IdLaw elsewhere L) :
    Custody (Issued (φ := φ) elsewhere asked L) where
  congr hp h := ⟨h.built, h.asked_le, h.next, fun hc => law.perm hp (h.law hc)⟩
  device _ _ h := ⟨h.built, h.asked_le, h.next, h.law⟩
  release h := ⟨h.built, h.asked_le, h.next, fun hc => law.drop (h.law hc)⟩
  request := by
    intro xs d id size h
    have hlen := request_requests d size id
    have hle := h.asked_le
    have hcount :
        (d.request size id).2.requests.length - asked = d.requests.length - asked + 1 := by
      omega
    have hnext : id.next.number.toNat =
        ((d.request size id).2.requests.length - asked + 1) % UInt64.size := by
      rw [BufferId.next_toNat, h.next, hcount, Nat.mod_add_mod]
    rcases request_surfaces hids d size id with ⟨hs, hb⟩ | ⟨x, hs, hk, hb⟩
    · refine ⟨?_, by omega, hnext, ?_⟩
      · rw [hb]
        exact h.built
      · rw [hs, hcount]
        exact fun hc => law.spend (h.law (by omega))
    · refine ⟨?_, by omega, hnext, ?_⟩
      · rw [hb]
        exact fun n hn => Nat.le_succ_of_le (h.built n hn)
      · rw [hs, hcount]
        intro hc
        have hnew : x.serial ∉ elsewhere := by
          intro hm
          have := h.built _ hm
          have : x.serial = d.built + 1 := congrArg Prod.fst hk
          omega
        have hid : x.id.number.toNat = d.requests.length - asked + 1 := by
          have hx : x.id = id := congrArg Prod.snd hk
          rw [hx, h.next, Nat.mod_eq_of_lt hc]
        exact law.make hnew hid (h.law (by omega))

/-- No two surfaces of the pool have the same id. -/
def IdsApart (elsewhere : List Nat) (ks : List (Nat × BufferId)) (c : Nat) : Prop :=
  (∀ p ∈ ks, ∀ q ∈ ks, p.1 ∉ elsewhere → q.1 ∉ elsewhere → p.2 = q.2 → p.1 = q.1) ∧
    ∀ p ∈ ks, p.1 ∉ elsewhere → p.2.number.toNat ≤ c

theorem idsApart_law (elsewhere : List Nat) : IdLaw elsewhere (IdsApart elsewhere) where
  perm hp h :=
    ⟨fun p hm q hm' => h.1 p (hp.mem_iff.mpr hm) q (hp.mem_iff.mpr hm'),
      fun p hm => h.2 p (hp.mem_iff.mpr hm)⟩
  drop h :=
    ⟨fun p hm q hm' => h.1 p (List.mem_cons_of_mem _ hm) q (List.mem_cons_of_mem _ hm'),
      fun p hm => h.2 p (List.mem_cons_of_mem _ hm)⟩
  spend h := ⟨h.1, fun p hm hp => Nat.le_succ_of_le (h.2 p hm hp)⟩
  make := by
    intro k ks c hk hid h
    have hnew : ∀ p ∈ ks, p.1 ∉ elsewhere → p.2 ≠ k.2 := by
      intro p hm hp he
      have := h.2 p hm hp
      rw [he] at this
      omega
    refine ⟨fun p hm q hm' hp hq he => ?_, fun p hm hp => ?_⟩
    · rcases List.mem_cons.mp hm with rfl | hm₁ <;> rcases List.mem_cons.mp hm' with rfl | hm₂
      · rfl
      · exact absurd he.symm (hnew q hm₂ hq)
      · exact absurd he (hnew p hm₁ hp)
      · exact h.1 p hm₁ q hm₂ hp hq he
    · rcases List.mem_cons.mp hm with rfl | hm
      · exact Nat.le_of_eq hid
      · exact Nat.le_succ_of_le (h.2 p hm hp)

theorem idsApart_more {elsewhere elsewhere' : List Nat} (hsub : ∀ n ∈ elsewhere, n ∈ elsewhere')
    {ks : List (Nat × BufferId)} {c : Nat} (h : IdsApart elsewhere ks c) :
    IdsApart elsewhere' ks c := by
  have hnot : ∀ n, n ∉ elsewhere' → n ∉ elsewhere := fun n hn hm => hn (hsub n hm)
  exact ⟨fun p hm q hm' hp hq => h.1 p hm q hm' (hnot _ hp) (hnot _ hq),
    fun p hm hp => h.2 p hm (hnot _ hp)⟩

theorem idsApart_cons {elsewhere : List Nat} {k : Nat × BufferId} (hk : k.1 ∈ elsewhere)
    {ks : List (Nat × BufferId)} {c : Nat} (h : IdsApart elsewhere ks c) :
    IdsApart elsewhere (k :: ks) c := by
  have hmem : ∀ p ∈ k :: ks, p.1 ∉ elsewhere → p ∈ ks := by
    intro p hm hp
    rcases List.mem_cons.mp hm with rfl | hm
    · exact absurd hk hp
    · exact hm
  exact ⟨fun p hm q hm' hp hq => h.1 p (hmem p hm hp) q (hmem q hm' hq) hp hq,
    fun p hm hp => h.2 p (hmem p hm hp) hp⟩

theorem issued_build {elsewhere : List Nat} {asked : Nat} {xs : List Surface} {d : Device φ}
    {id : BufferId} (f : Features) (h : Issued elsewhere asked (IdsApart elsewhere) xs d id) :
    Issued (elsewhere ++ [(d.build f).1.serial]) asked
      (IdsApart (elsewhere ++ [(d.build f).1.serial])) ((d.build f).1 :: xs) (d.build f).2 id := by
  refine ⟨fun n hn => ?_, h.asked_le, h.next, fun hc => ?_⟩
  · rcases List.mem_append.mp hn with hn | hn
    · exact Nat.le_succ_of_le (h.built n hn)
    · exact Nat.le_of_eq (List.mem_singleton.mp hn)
  · have hmore : IdsApart (elsewhere ++ [(d.build f).1.serial]) (xs.map Surface.key)
        (d.requests.length - asked) :=
      idsApart_more (fun n hn => List.mem_append_left _ hn) (h.law hc)
    exact idsApart_cons (k := (d.build f).1.key) (List.mem_append_right _ List.mem_cons_self) hmore

theorem requests_custody [Allocator φ] (count : Nat) :
    Custody fun (_ : List Surface) (d : Device φ) (_ : BufferId) =>
      count ≤ d.requests.length where
  congr _ h := h
  device _ _ h := h
  release h := h
  request size h := by
    rw [request_requests]
    exact Nat.le_succ_of_le h

namespace System

variable [Allocator φ] {s : System φ}

theorem Sound.requests_le (h : s.Sound) (m : Move φ) (stays : m.staysOpen = true) :
    s.device.requests.length ≤ (s.step m).2.device.requests.length :=
  keeps_step (requests_custody s.device.requests.length) m stays h.inUse
    (fun _ _ => Nat.le_refl _) (fun _ _ _ => Nat.le_refl _) (Nat.le_refl _)

end System

theorem requestsMade_append (past : List (Moment φ)) (m : Moment φ) :
    requestsMade (past ++ [m]) = requestsMade past + m.requests := by
  unfold requestsMade
  rw [List.foldl_append]
  rfl

theorem requestsMade_le_append (past : List (Moment φ)) (m : Moment φ) :
    requestsMade past ≤ requestsMade (past ++ [m]) := by
  rw [requestsMade_append]
  exact Nat.le_add_right _ _

theorem foreign_append (past : List (Moment φ)) (m : Moment φ) :
    foreign (past ++ [m]) = foreign past ++ m.foreign := by
  simp [foreign]

namespace Life

variable [Allocator φ] {past : List (Moment φ)} {s : System φ}

theorem foreign_opening {config : Option Config}
    (ok : (s.step (.openPool config)).1 = .done) :
    foreign [s.moment (.openPool config)] = s.held.map fun x => x.serial := by
  obtain ⟨-, -, journal, he⟩ := opening ok
  change Moment.foreign ⟨s, .openPool config, (s.step (.openPool config)).1,
    (s.step (.openPool config)).2⟩ ++ [] = _
  rw [ok, he, List.append_nil]
  rfl

omit [Allocator φ] in
theorem issued_reopened (sound : s.Sound) (hcalls : s.calls = []) (config : Config)
    (journal : Log.Journal) :
    (s.reopened config journal).Keeps
      (Issued (s.held.map fun x => x.serial) s.device.requests.length
        (IdsApart (s.held.map fun x => x.serial))) [] := by
  have hrel := Device.requests_releaseAll s.device s.pooled
  have howned : (s.reopened config journal).owned = s.held := by
    change s.held ++ s.calls.map Call.surface ++ [] = s.held
    rw [hcalls, List.map_nil, List.append_nil, List.append_nil]
  have hmem : ∀ p ∈ s.held.map Surface.key, p.1 ∈ s.held.map fun x => x.serial := by
    intro p hp
    obtain ⟨x, hx, rfl⟩ := List.mem_map.mp hp
    exact List.mem_map.mpr ⟨x, hx, rfl⟩
  have hcount : (s.device.releaseAll s.pooled).requests.length - s.device.requests.length = 0 := by
    rw [hrel.1, Nat.sub_self]
  unfold System.Keeps
  rw [List.nil_append, howned]
  refine ⟨fun n hn => ?_, Nat.le_of_eq (by rw [← hrel.1]; rfl), ?_, fun _ => ⟨?_, ?_⟩⟩
  · obtain ⟨x, hx, rfl⟩ := List.mem_map.mp hn
    exact Nat.le_trans (sound.serial_le (System.mem_owned_of_held hx)) (Nat.le_of_eq hrel.2.symm)
  · change _ = ((s.device.releaseAll s.pooled).requests.length - s.device.requests.length + 1) %
      UInt64.size
    rw [hcount]
    rfl
  · exact fun p hp _ _ hp' => absurd (hmem p hp) hp'
  · exact fun p hp hp' => absurd (hmem p hp) hp'

/-- The next id counts the requests of this life, and ids that were given out differ. -/
theorem issued (hids : Allocator.KeepsIds φ) (life : Life Orderly past s) :
    ∃ asked, s.device.requests.length = asked + requestsMade past ∧
      s.Keeps (Issued (foreign past) asked (IdsApart (foreign past))) [] := by
  induction life with
  | @opened s config hs ok =>
    obtain ⟨hcalls, -, journal, he⟩ := opening ok
    have hlen := congrArg List.length (Device.requests_releaseAll s.device s.pooled).1
    refine ⟨s.device.requests.length, ?_, ?_⟩
    · change _ = _ + (0 + ((s.step (.openPool config)).2.device.requests.length -
        s.device.requests.length))
      rw [he]
      change (s.device.releaseAll s.pooled).requests.length = _ +
        (0 + ((s.device.releaseAll s.pooled).requests.length - s.device.requests.length))
      omega
    · rw [he, foreign_opening ok]
      exact issued_reopened hs.sound hcalls _ journal
  | @move past s life m stays lawful ih =>
    obtain ⟨asked, hlen, hk⟩ := ih
    have hle := life.sound.requests_le m stays
    refine ⟨asked, ?_, ?_⟩
    · rw [requestsMade_append]
      change _ = asked + (requestsMade past +
        ((s.step m).2.device.requests.length - s.device.requests.length))
      omega
    · have hlaw : Custody (Issued (φ := φ) (foreign past) asked (IdsApart (foreign past))) :=
        (idsApart_law _).custody hids
      rw [foreign_append]
      by_cases hbuild : ∃ f, m = .build f
      · obtain ⟨f, rfl⟩ := hbuild
        have hlaw' : Custody (Issued (φ := φ) (foreign past ++ [(s.device.build f).1.serial]) asked
          (IdsApart (foreign past ++ [(s.device.build f).1.serial]))) :=
            (idsApart_law _).custody hids
        exact System.keeps_hold hlaw' _ (issued_build f hk)
      · have hnone : (s.moment m).foreign = [] := by
          cases m with
          | openPool config => exact absurd stays (by simp [Move.staysOpen])
          | build f => exact absurd ⟨f, rfl⟩ hbuild
          | _ => rfl
        rw [hnone, List.append_nil]
        exact System.keeps_step hlaw m stays life.sound.inUse
          (fun f he => absurd ⟨f, he⟩ hbuild)
          (fun serial change he => System.keeps_touch hlaw serial change
            (lawful.sameId serial change he) hk) hk

end Life

end SurfaceReuse
