/-
  CheatEngine.Dbvm.Reset

  What `ept_reset` leaves behind.  Every state that a run reaches can be restored:
  a byte that is not on a cloaked page is its own, and the copy of a cloaked page
  has the page's own bytes.  So decloaking every page gives all bytes back, and
  only the entries can stay wrong: on Intel `ept_cloak_deactivate` allows every
  access but keeps the page number, which is that of the copy while a CPU reads
  the page.
-/
import CheatEngine.Dbvm.Ept

namespace CheatEngine.Dbvm

open CheatEngine.Lib

namespace CloakState

variable {κ : Type}

/-! ## Bytes that decloaking gives back -/

/-- Decloaking every page gives back the bytes `own`. -/
structure Restorable (maxphyaddr : Nat) (own : Nat → UInt8) (s : CloakState κ) (spec : CloakSpec) :
    Prop where
  links : s.Links maxphyaddr spec
  based : ∀ a p, (a, p) ∈ spec.pages → pageBase maxphyaddr a = a
  copy : ∀ p d, s.cloakdata p = some d → ∀ offset, offset < 4096 →
    d.data offset = own (d.executable + offset)
  outside : ∀ x, ¬ Covered spec x → s.memory x = own x

variable {maxphyaddr p physicalAddress : Nat} {own : Nat → UInt8} {s s' : CloakState κ}
  {spec : CloakSpec}

theorem restorable_initial (memory : Nat → UInt8) :
    (initial memory : CloakState κ).Restorable maxphyaddr memory .initial :=
  ⟨links_initial memory, nofun, nofun, fun _ _ => rfl⟩

section

variable (h : s.Restorable maxphyaddr own spec)
include h

theorem Restorable.write {byte : UInt8} (hs' : s.writeExecutable p physicalAddress byte = some s') :
    s'.Restorable maxphyaddr own spec ∧ s'.registry = s.registry := by
  rw [writeExecutable, Option.map_eq_some_iff] at hs'
  obtain ⟨d, hd, rfl⟩ := hs'
  refine ⟨⟨h.links.congr rfl rfl rfl, h.based, h.copy, ?_⟩, rfl⟩
  intro x hx
  have hmem : (d.executable, p) ∈ spec.pages := (h.links.live _ p).2 ⟨d, hd, rfl⟩
  have hoff : physicalAddress % 4096 < 4096 := Nat.mod_lt _ (by decide)
  have hne : x ≠ d.executable + physicalAddress % 4096 := by
    rintro rfl
    exact hx ⟨d.executable, p, hmem, by omega, by omega⟩
  exact (Function.update_of_ne hne _ _).trans (h.outside x hx)

/-- The trace and the pending steps do not matter to the bytes. -/
theorem Restorable.congr (hmemory : s'.memory = s.memory) (hregistry : s'.registry = s.registry)
    (hcloakdata : s'.cloakdata = s.cloakdata)
    (hlist : s'.changeRegBPList = s.changeRegBPList) : s'.Restorable maxphyaddr own spec where
  links := h.links.congr hregistry hcloakdata hlist
  based := h.based
  copy := hcloakdata ▸ h.copy
  outside := hmemory ▸ h.outside

/-- Breakpoints were taken out. -/
theorem Restorable.drops
    {which : ChangeRegBPEntry → Prop} {written : Nat → Prop} (hdrops : Drops which written s s')
    (hwritten : ∀ x, written x → Covered spec x) : s'.Restorable maxphyaddr own spec where
  links := hdrops.links h.links
  based := h.based
  copy := hdrops.cloakdata ▸ h.copy
  outside x hx := by
    rw [hdrops.memory x fun hyes => hx (hwritten x hyes)]
    exact h.outside x hx

theorem Restorable.removechangeregonbp (physicalAddress : Nat) :
    ∃ s', s.removechangeregonbp physicalAddress = some s' ∧ s'.Restorable maxphyaddr own spec ∧
      Unset s'.changeRegBPList physicalAddress := by
  obtain ⟨s', hs', hdrops, hunset⟩ := h.links.removechangeregonbp physicalAddress
  exact ⟨s', hs', h.drops hdrops fun x hx => hx.1, hunset⟩

theorem Restorable.activate (hs' : s.activate maxphyaddr physicalAddress = some s') :
    ∃ spec', s'.Restorable maxphyaddr own spec' ∧ (∃ l, s'.registry.Refines spec' l) ∧
      s'.changeRegBPList = s.changeRegBPList := by
  rcases h.links.activate hs' with ⟨rfl, l, p, href, -⟩ | ⟨hfree, r, l, href, heq, hlinks⟩
  · exact ⟨spec, h, ⟨l, href⟩, rfl⟩
  · subst heq
    refine ⟨_, ⟨hlinks, ?_, ?_, ?_⟩, ⟨l, href⟩, rfl⟩
    · intro a p ha
      rcases List.mem_cons.1 ha with heq | hold
      · rw [(Prod.mk.inj heq).1]
        exact pageBase_pageBase
      · exact h.based a p hold
    · intro p d hd offset hoffset
      by_cases hp : p = spec.nextData
      · subst hp
        simp only [Function.update_self, Option.some.injEq] at hd
        rw [← hd]
        apply h.outside
        -- two pages that share a byte are the same page
        rintro ⟨b, q, hb, hle, hlt⟩
        have hb₀ := h.links.aligned b q hb
        have ha₀ := pageBase_mod maxphyaddr physicalAddress
        have heq : pageBase maxphyaddr physicalAddress = b := by omega
        rw [← heq] at hb
        exact hfree q hb
      · simp only [Function.update_of_ne hp] at hd
        exact h.copy p d hd offset hoffset
    · intro x hx
      apply h.outside
      rintro ⟨a, p, ha, hin⟩
      exact hx ⟨a, p, List.mem_cons_of_mem _ ha, hin⟩

theorem Restorable.deactivate {l : AddressList}
    (href : s.registry.Refines spec l) (physicalAddress : Nat) :
    ∃ s' l', s.deactivate maxphyaddr physicalAddress = some s' ∧
      s'.Restorable maxphyaddr own
        { spec with pages := spec.pages.filter (·.1 ≠ pageBase maxphyaddr physicalAddress) } ∧
      s'.registry.Refines
        { spec with pages := spec.pages.filter (·.1 ≠ pageBase maxphyaddr physicalAddress) } l' ∧
      ∀ (j : Nat) (e : ChangeRegBPEntry), s'.changeRegBPList[j]? = some e → e.active = true →
        s.changeRegBPList[j]? = some e := by
  obtain ⟨r, l', href', ⟨hdata, hs'⟩ | ⟨p, d, s₁, hp, hd, hexecutable, hdrops, hnone, hs'⟩⟩ :=
    h.links.deactivate href physicalAddress
  · refine ⟨_, l', hs', ?_, href', fun _ _ hj _ => hj⟩
    rw [CloakSpec.filter_of_data_none hdata] at href' ⊢
    exact ⟨⟨.inl ⟨l', href'⟩, h.links.live, h.links.aligned, h.links.breakpoint, h.links.once⟩,
      h.based, h.copy, h.outside⟩
  · generalize pageBase maxphyaddr physicalAddress = a at *
    refine ⟨_, l', hs', ⟨?_, ?_, ?_, ?_⟩, href', hdrops.active⟩
    · exact (hdrops.links h.links).decloak hp hnone href' rfl rfl
    · exact fun b q hb => h.based b q (List.mem_filter.1 hb).1
    · intro q d' hd'
      by_cases hq : q = p
      · subst hq
        simp only [Function.update_self] at hd'
        exact nomatch hd'
      · simp only [Function.update_of_ne hq, hdrops.cloakdata] at hd'
        exact h.copy q d' hd'
    · intro x hx
      show restorePage s₁.memory d x = own x
      by_cases hin : a ≤ x ∧ x < a + 4096
      · have hcopy := h.copy p d hd (x - a) (by omega)
        have hsum : a + (x - a) = x := by omega
        rw [hexecutable, hsum] at hcopy
        rw [restorePage, hexecutable, if_pos hin, hcopy]
      · rw [restorePage, hexecutable, if_neg hin, hdrops.memory x hin]
        apply h.outside
        rintro ⟨b, q, hb, hin'⟩
        refine hx ⟨b, q, List.mem_filter.2 ⟨hb, ?_⟩, hin'⟩
        have hne : b ≠ a := by
          rintro rfl
          exact hin hin'
        exact decide_eq_true hne

end

/-! ## Calls -/

theorem mem_of_lookup {r : CloakRegistry} {l : AddressList} {a : Nat} (href : r.Refines spec l)
    (hlookup : r.lookup a = some (some p)) : (a, p) ∈ spec.pages := by
  rw [href.lookup, Option.some.injEq] at hlookup
  exact href.distinct.data_eq_some.1 hlookup

theorem Restorable.changeregonbp (h : s.Restorable maxphyaddr own spec) {info : ChangeRegInfo}
    (hs' : s.changeregonbp maxphyaddr physicalAddress info = some s') :
    ∃ spec', s'.Restorable maxphyaddr own spec' := by
  obtain ⟨s₁, hs₁, h₁, hunset⟩ := h.removechangeregonbp physicalAddress
  simp only [CloakState.changeregonbp, hs₁, Option.bind_eq_bind, Option.bind_some,
    Option.bind_eq_some_iff] at hs'
  obtain ⟨s₂, hs₂, found, hlookup, hrest⟩ := hs'
  obtain ⟨spec', h₂, ⟨l, href⟩, hlist⟩ := h₁.activate hs₂
  cases found with
  | none => exact ⟨spec', Option.some.inj hrest ▸ h₂⟩
  | some p =>
    simp only [Option.bind_eq_some_iff] at hrest
    obtain ⟨d, -, s₃, hs₃, heq⟩ := hrest
    obtain ⟨h₃, -⟩ := h₂.write hs₃
    have hfields : s₃.registry = s₂.registry ∧ s₃.cloakdata = s₂.cloakdata ∧
        s₃.changeRegBPList = s₂.changeRegBPList := by
      rw [writeExecutable, Option.map_eq_some_iff] at hs₃
      obtain ⟨d', -, rfl⟩ := hs₃
      exact ⟨rfl, rfl, rfl⟩
    rw [← Option.some.inj heq]
    refine ⟨spec', ⟨h₂.links.putBreakpoint (e := ⟨physicalAddress, _, info, p, true⟩)
      (mem_of_lookup href hlookup) (hlist ▸ hunset) hfields.1 hfields.2.1 rfl, h₃.based, h₃.copy,
      h₃.outside⟩⟩

theorem Restorable.removeTrace (h : s.Restorable maxphyaddr own spec) {forcequit running : Bool}
    (hs' : s.removeTrace forcequit = some (running, s')) : s'.Restorable maxphyaddr own spec := by
  unfold CloakState.removeTrace at hs'
  split at hs'
  · cases hs'
    exact h
  · split at hs'
    · split at hs'
      · cases hs'
        exact h
      · cases hs'
        exact h.congr rfl rfl rfl rfl
    · rw [Option.bind_eq_bind, Option.bind_eq_some_iff] at hs'
      obtain ⟨s₁, hs₁, heq⟩ := hs'
      cases heq
      exact (h.write hs₁).1.congr rfl rfl rfl rfl

theorem Restorable.traceonbp (h : s.Restorable maxphyaddr own spec) {allocated : Bool}
    (hs' : s.traceonbp maxphyaddr physicalAddress allocated = some s') :
    ∃ spec', s'.Restorable maxphyaddr own spec' := by
  simp only [CloakState.traceonbp, Option.bind_eq_bind, Option.bind_eq_some_iff] at hs'
  obtain ⟨⟨running, s₁⟩, hs₁, hrest⟩ := hs'
  have h₁ := h.removeTrace hs₁
  cases running with
  | true => exact ⟨spec, Option.some.inj hrest ▸ h₁⟩
  | false =>
    simp only [Bool.false_eq_true, if_false, Option.bind_eq_some_iff] at hrest
    obtain ⟨s₂, hs₂, found, -, hrest⟩ := hrest
    obtain ⟨spec', h₂, -, -⟩ := h₁.activate hs₂
    refine ⟨spec', ?_⟩
    cases found with
    | none => exact Option.some.inj hrest ▸ h₂
    | some p =>
      cases allocated with
      | false => exact Option.some.inj hrest ▸ h₂
      | true =>
        simp only [if_true, Option.bind_eq_some_iff] at hrest
        obtain ⟨d, -, s₃, hs₃, heq⟩ := hrest
        rw [← Option.some.inj heq]
        exact (h₂.write hs₃).1.congr rfl rfl rfl rfl

section Cpu

variable [DecidableEq κ]

/-- `ept_handleSoftwareBreakpoint`. -/
theorem Restorable.hit (h : s.Restorable maxphyaddr own spec) {c : κ} {PA RIP : Nat}
    (hs' : s.hit c PA RIP = some s') : s'.Restorable maxphyaddr own spec := by
  have hbreakpoint : s.hitBreakpoint c PA RIP = some s' → s'.Restorable maxphyaddr own spec := by
    intro hs'
    unfold CloakState.hitBreakpoint at hs'
    split at hs'
    · exact Option.some.inj hs' ▸ h
    split at hs'
    · exact Option.some.inj hs' ▸ h
    split at hs'
    · rw [Option.bind_eq_bind, Option.bind_eq_some_iff] at hs'
      obtain ⟨s₁, hs₁, heq⟩ := hs'
      rw [← Option.some.inj heq]
      exact (h.write hs₁).1.congr rfl rfl rfl rfl
    · exact Option.some.inj hs' ▸ h
  unfold CloakState.hit at hs'
  split at hs'
  · exact hbreakpoint hs'
  split at hs'
  · split at hs'
    · exact Option.some.inj hs' ▸ h
    · rw [Option.bind_eq_bind, Option.bind_eq_some_iff] at hs'
      obtain ⟨s₁, hs₁, heq⟩ := hs'
      rw [← Option.some.inj heq]
      exact (h.write hs₁).1.congr rfl rfl rfl rfl
  · exact hbreakpoint hs'

theorem Restorable.afterStep (h : s.Restorable maxphyaddr own spec) {c : κ}
    (hs' : s.afterStep c = some s') : s'.Restorable maxphyaddr own spec := by
  cases hreasons : s.reasons c with
  | nil =>
    simp only [CloakState.afterStep, hreasons] at hs'
    exact Option.some.inj hs' ▸ h
  | cons ID rest =>
    have h₁ : ({ s with reasons := Function.update s.reasons c rest } : CloakState κ).Restorable
        maxphyaddr own spec := h.congr rfl rfl rfl rfl
    simp only [CloakState.afterStep, hreasons] at hs'
    split at hs'
    · exact Option.some.inj hs' ▸ h₁
    · split at hs'
      · exact (h₁.write hs').1
      · exact Option.some.inj hs' ▸ h₁

/-- Every call or event that returns. -/
theorem Restorable.step (h : s.Restorable maxphyaddr own spec) {input : BreakpointInput κ}
    (hs' : s.step maxphyaddr input = some s') : ∃ spec', s'.Restorable maxphyaddr own spec' := by
  cases input with
  | activate physicalAddress =>
    obtain ⟨spec', h', -⟩ := h.activate hs'
    exact ⟨spec', h'⟩
  | deactivate physicalAddress =>
    rcases h.links.registry with ⟨l, href⟩ | ⟨hinitial, -⟩
    · obtain ⟨s'', -, hs'', h'', -⟩ := h.deactivate href physicalAddress
      exact ⟨_, Option.some.inj (hs''.symm.trans hs') ▸ h''⟩
    · -- there is no list yet, and the lookup does not return
      have hnone : s.deactivate maxphyaddr physicalAddress = none := by
        rw [CloakState.deactivate, hinitial]
        rfl
      cases hnone.symm.trans hs'
  | changeregonbp physicalAddress info => exact h.changeregonbp hs'
  | removechangeregonbp physicalAddress =>
    obtain ⟨s'', hs'', h'', -⟩ := h.removechangeregonbp physicalAddress
    exact ⟨spec, Option.some.inj (hs''.symm.trans hs') ▸ h''⟩
  | traceonbp physicalAddress allocated => exact h.traceonbp hs'
  | stoptrace =>
    refine ⟨spec, ?_⟩
    have hs : s.stoptrace = some s' := hs'
    unfold CloakState.stoptrace at hs
    split at hs
    · exact Option.some.inj hs ▸ h
    · split at hs
      · exact Option.some.inj hs ▸ h
      · exact (h.write hs).1
  | removeTrace forcequit =>
    obtain ⟨⟨running, s''⟩, hs'', rfl⟩ := Option.map_eq_some_iff.1 hs'
    exact ⟨spec, h.removeTrace hs''⟩
  | finishTrace => exact ⟨spec, Option.some.inj hs' ▸ h.congr rfl rfl rfl rfl⟩
  | hit c PA RIP => exact ⟨spec, h.hit hs'⟩
  | afterStep c => exact ⟨spec, h.afterStep hs'⟩

end Cpu

end CloakState

namespace EptState

variable {κ : Type}

theorem eptWatchList_deactivate {executeOnly : Bool} {s : WatchState κ} {ID i : Nat}
    {w : WatchEntry} (hget : (s.deactivate executeOnly ID).eptWatchList[i]? = some w)
    (hactive : w.active = true) : s.eptWatchList[i]? = some w ∧ i ≠ ID := by
  unfold WatchState.deactivate at hget
  split at hget
  · next hnone =>
    refine ⟨hget, ?_⟩
    rintro rfl
    exact nomatch hnone.symm.trans hget
  · next w' hw' =>
    split at hget
    · have hset : (s.eptWatchList.set ID { w' with active := false })[i]? = some w := hget
      rw [List.getElem?_set] at hset
      split at hset
      · split at hset
        · rw [← Option.some.inj hset] at hactive
          exact absurd hactive Bool.false_ne_true
        · exact nomatch hset
      · next hne => exact ⟨hset, Ne.symm hne⟩
    · next hinactive =>
      refine ⟨hget, ?_⟩
      rintro rfl
      rw [Option.some.inj (hw'.symm.trans hget)] at hinactive
      exact hinactive hactive

theorem resetWatches_inactive (executeOnly : Bool) (s : WatchState κ) :
    ∀ w ∈ (resetWatches executeOnly s).eptWatchList, w.active = false := by
  have hloop : ∀ (is : List Nat) (s : WatchState κ) (j : Nat) (w : WatchEntry),
      (is.foldl (fun s i => s.deactivate executeOnly i) s).eptWatchList[j]? = some w →
      w.active = true → s.eptWatchList[j]? = some w ∧ j ∉ is := by
    intro is
    induction is with
    | nil => exact fun s j w hj _ => ⟨hj, List.not_mem_nil⟩
    | cons i is ih =>
      intro s j w hj hactive
      obtain ⟨hj₁, hnot⟩ := ih _ j w hj hactive
      obtain ⟨hj₀, hne⟩ := eptWatchList_deactivate hj₁ hactive
      exact ⟨hj₀, fun hmem => (List.mem_cons.1 hmem).elim hne hnot⟩
  intro w hw
  rw [Bool.eq_false_iff]
  intro hactive
  obtain ⟨j, hj⟩ := List.getElem?_of_mem hw
  obtain ⟨hold, hnot⟩ := hloop _ s j w hj hactive
  exact hnot (List.mem_range.2 (List.getElem?_eq_some_iff.1 hold).1)

theorem resetWatches_entry (executeOnly : Bool) (s : WatchState κ)
    (hlength : ∀ c, s.eptWatchListLength c = 0) :
    (resetWatches executeOnly s).entry = s.entry ∧
      ∀ c, (resetWatches executeOnly s).eptWatchListLength c = 0 := by
  have hloop : ∀ (is : List Nat) (s : WatchState κ), (∀ c, s.eptWatchListLength c = 0) →
      (is.foldl (fun s i => s.deactivate executeOnly i) s).entry = s.entry ∧
        ∀ c, (is.foldl (fun s i => s.deactivate executeOnly i) s).eptWatchListLength c = 0 := by
    intro is
    induction is with
    | nil => exact fun s hlength => ⟨rfl, hlength⟩
    | cons i is ih =>
      intro s hlength
      have hone : (s.deactivate executeOnly i).entry = s.entry ∧
          ∀ c, (s.deactivate executeOnly i).eptWatchListLength c = 0 := by
        unfold WatchState.deactivate
        split
        · exact ⟨rfl, hlength⟩
        · split
          · refine ⟨?_, hlength⟩
            funext c page
            apply if_neg
            rw [hlength c]
            exact fun hcon => Nat.not_lt_zero i hcon.2.2
          · exact ⟨rfl, hlength⟩
      obtain ⟨hentry, hlength'⟩ := ih _ hone.2
      exact ⟨hentry.trans hone.1, hlength'⟩
  exact hloop _ s hlength

/-! ## Cloaked pages -/

variable {pf : Platform} {own : Nat → UInt8} {s : EptState κ} {spec : CloakSpec}
  {l : AddressList}

theorem cloakedData_of_refines {r : CloakRegistry} (href : r.Refines spec l) (page : Nat) :
    cloakedData r page = spec.data (page * 4096) := by
  rw [cloakedData, href.lookup]
  rfl

theorem data_filter_ne (hdistinct : spec.Distinct) {a b : Nat} (hne : b ≠ a) :
    ({ spec with pages := spec.pages.filter (·.1 ≠ a) } : CloakSpec).data b = spec.data b := by
  have hfiltered := hdistinct.filter fun x => decide (x.1 ≠ a)
  cases hdata : spec.data b with
  | some p =>
    have hb := hdistinct.data_eq_some.1 hdata
    exact hfiltered.data_eq_some.2 (List.mem_filter.2 ⟨hb, decide_eq_true hne⟩)
  | none =>
    apply hfiltered.data_eq_none.2
    intro p hp
    exact hdistinct.data_eq_none.1 hdata p (List.mem_filter.1 hp).1

theorem data_filter_self (hdistinct : spec.Distinct) (a : Nat) :
    ({ spec with pages := spec.pages.filter (·.1 ≠ a) } : CloakSpec).data a = none := by
  apply (hdistinct.filter fun x => decide (x.1 ≠ a)).data_eq_none.2
  intro p hp
  exact of_decide_eq_true (List.mem_filter.1 hp).2 rfl

theorem resetBreakpoints_spec {s : CloakState κ} {maxphyaddr : Nat}
    (h : s.Restorable maxphyaddr own spec) :
    ∃ s', resetBreakpoints s = some s' ∧ s'.Restorable maxphyaddr own spec ∧
      s'.registry = s.registry ∧ ∀ e ∈ s'.changeRegBPList, e.active = false := by
  obtain ⟨s', hs', hdrops, hnone⟩ := h.links.foldlM_removeWhich fun _ => true
  refine ⟨s', hs', h.drops hdrops ?_, hdrops.registry, ?_⟩
  · rintro x ⟨e, he, hactive, -, rfl⟩
    have hmem := h.links.breakpoint e he hactive
    have hoff : e.physicalAddress % 4096 < 4096 := Nat.mod_lt _ (by decide)
    refine ⟨_, _, hmem, ?_, ?_⟩ <;>
      · rw [CloakState.byteAddress]
        omega
  · intro e he
    rw [Bool.eq_false_iff]
    exact fun hactive => Bool.false_ne_true (hnone e he hactive).symm

/-- The cloaked pages `spec` of `s` are all decloaked in `s'`, and nothing else
    changed. -/
structure Decloaks (pf : Platform) (own : Nat → UInt8) (spec : CloakSpec) (s s' : EptState κ) :
    Prop where
  restorable : s'.cloak.Restorable pf.maxphyaddr own { spec with pages := [] }
  refines : ∃ l, s'.cloak.registry.Refines { spec with pages := [] } l
  breakpoints : ∀ (j : Nat) (e : ChangeRegBPEntry), s'.cloak.changeRegBPList[j]? = some e →
    e.active = true → s.cloak.changeRegBPList[j]? = some e
  watches : s'.watch.eptWatchList = s.watch.eptWatchList
  length : s'.watch.eptWatchListLength = s.watch.eptWatchListLength
  entry : ∀ c page, s'.watch.entry c page =
    if (spec.data (page * 4096)).isSome then (s.watch.entry c page).decloak page
    else s.watch.entry c page

theorem listSize_of_refines (href : s.cloak.registry.Refines spec l) : s.listSize = l.size := by
  rw [listSize, href.list]
  rfl

theorem decloaks_of_empty (h : s.cloak.Restorable pf.maxphyaddr own spec)
    (href : s.cloak.registry.Refines spec l) (hsize : l.size = 0) : Decloaks pf own spec s s := by
  have hempty : spec = { spec with pages := [] } := by
    rw [href.size] at hsize
    rw [← List.eq_nil_of_length_eq_zero hsize]
  refine ⟨hempty ▸ h, ⟨l, hempty ▸ href⟩, fun _ _ hj _ => hj, rfl, rfl, ?_⟩
  intro c page
  rw [hempty]
  rfl

section Cpu

variable [DecidableEq κ]

theorem cloakCall_deactivate (h : s.cloak.Restorable pf.maxphyaddr own spec)
    (href : s.cloak.registry.Refines spec l) {a p : Nat} (ha : (a, p) ∈ spec.pages) :
    ∃ s' l', s.cloakCall pf (.deactivate a) 0 = some s' ∧
      s'.cloak.Restorable pf.maxphyaddr own
        { spec with pages := spec.pages.filter (·.1 ≠ a) } ∧
      s'.cloak.registry.Refines { spec with pages := spec.pages.filter (·.1 ≠ a) } l' ∧
      (∀ (j : Nat) (e : ChangeRegBPEntry), s'.cloak.changeRegBPList[j]? = some e →
        e.active = true → s.cloak.changeRegBPList[j]? = some e) ∧
      s'.watch.eptWatchList = s.watch.eptWatchList ∧
      s'.watch.eptWatchListLength = s.watch.eptWatchListLength ∧
      ∀ c page, s'.watch.entry c page =
        if page * 4096 = a then (s.watch.entry c page).decloak page else s.watch.entry c page := by
  obtain ⟨cloak, l', hcloak, h', href', hlist⟩ := h.deactivate href a
  rw [h.based a p ha] at h' href'
  have hstep : s.cloak.step pf.maxphyaddr (.deactivate a) = some cloak := hcloak
  rw [cloakCall, hstep]
  refine ⟨_, l', rfl, h', href', hlist, rfl, rfl, ?_⟩
  intro c page
  show syncEntry pf (cloakedData s.cloak.registry page) (cloakedData cloak.registry page) page _ = _
  rw [cloakedData_of_refines href, cloakedData_of_refines href']
  by_cases hpage : page * 4096 = a
  · rw [if_pos hpage, hpage, href.distinct.data_eq_some.2 ha, data_filter_self href.distinct]
    rfl
  · rw [if_neg hpage, data_filter_ne href.distinct hpage]
    unfold syncEntry
    split
    · next hnone hsome => exact nomatch hnone.symm.trans hsome
    · next hsome hnone => exact nomatch hsome.symm.trans hnone
    · rfl

theorem resetList_spec (fuel : Nat) (h : s.cloak.Restorable pf.maxphyaddr own spec)
    (href : s.cloak.registry.Refines spec l) (hfuel : spec.pages.length ≤ fuel) :
    ∃ s', resetList pf fuel s = some s' ∧ Decloaks pf own spec s s' := by
  induction fuel generalizing s spec l with
  | zero =>
    have hsize : l.size = 0 := by
      rw [href.size]
      omega
    refine ⟨s, ?_, decloaks_of_empty h href hsize⟩
    rw [resetList, listSize_of_refines href, if_pos hsize]
  | succ fuel ih =>
    by_cases hsize : l.size = 0
    · refine ⟨s, ?_, decloaks_of_empty h href hsize⟩
      rw [resetList, listSize_of_refines href, if_pos hsize]
    -- the first entry of the list is a cloaked page
    have hlen : 0 < l.memory.length := by
      rw [href.wellFormed.length]
      decide
    have hget := AddressList.getElem?_eq_entryAt hlen
    generalize hfirst : AddressList.entryAt l.memory 0 = e at hget
    have hmem : (e.address, e.data) ∈ spec.pages :=
      (href.holds _ _).1 ⟨0, Nat.pos_of_ne_zero hsize, hfirst⟩
    obtain ⟨s₁, l₁, hs₁, h₁, href₁, hlist₁, hwatches₁, hlength₁, hentry₁⟩ :=
      cloakCall_deactivate h href hmem
    have hfuel₁ : (spec.pages.filter (·.1 ≠ e.address)).length ≤ fuel := by
      have hone := href.distinct.length_filter hmem
      omega
    obtain ⟨s₂, hs₂, h₂⟩ := ih h₁ href₁ hfuel₁
    refine ⟨s₂, ?_, ⟨h₂.restorable, h₂.refines, ?_, h₂.watches.trans hwatches₁,
      h₂.length.trans hlength₁, ?_⟩⟩
    · rw [resetList, listSize_of_refines href, if_neg hsize]
      simp only [href.list, hget, Option.bind_eq_bind, Option.bind_some, hs₁, hs₂]
    · exact fun j e' hj hactive => hlist₁ j e' (h₂.breakpoints j e' hj hactive) hactive
    · intro c page
      rw [h₂.entry, hentry₁]
      by_cases hpage : page * 4096 = e.address
      · rw [if_pos hpage, hpage, data_filter_self href.distinct,
          href.distinct.data_eq_some.2 hmem]
        rfl
      · rw [if_neg hpage, data_filter_ne href.distinct hpage]

/-! ## Runs -/

/-- What every run keeps. -/
structure Inv (pf : Platform) (own : Nat → UInt8) (s : EptState κ) : Prop where
  length : ∀ c, s.watch.eptWatchListLength c = 0
  cloak : ∃ spec, s.cloak.Restorable pf.maxphyaddr own spec

/-- What `ept_reset` is meant to leave. -/
structure Removed (memory : Nat → UInt8) (s s' : EptState κ) : Prop where
  watches : ∀ w ∈ s'.watch.eptWatchList, w.active = false
  breakpoints : ∀ e ∈ s'.cloak.changeRegBPList, e.active = false
  lookup : (s'.cloak.registry.list = none ∧ s'.cloak.registry.map = none) ∨
    ∀ a, s'.cloak.registry.lookup a = some none
  bytes : ∀ a p, s.cloak.registry.lookup a = some (some p) → ∀ offset, offset < 4096 →
    s'.cloak.memory (a + offset) = memory (a + offset)
  entries : ∀ c a p, s.cloak.registry.lookup a = some (some p) →
    (s'.watch.entry c (pageOf a)).Maps (pageOf a)

/-- `ept_reset` returns and removes everything. -/
def ResetRemoves (pf : Platform) (memory : Nat → UInt8) (s : EptState κ) : Prop :=
  ∃ s', s.reset pf = some s' ∧ Removed memory s s'

/-- On no CPU an Intel entry of a cloaked page shows another page. -/
def ShowsOwnPages (s : EptState κ) : Prop :=
  ∀ c a p, s.cloak.registry.lookup a = some (some p) →
    (s.watch.entry c (pageOf a)).ShowsPage (pageOf a)

theorem reset_eq (h : s.cloak.Restorable pf.maxphyaddr own spec)
    (hlength : ∀ c, s.watch.eptWatchListLength c = 0) :
    ∃ s₁ : EptState κ, s.reset pf = resetList pf s₁.listSize s₁ ∧
      s₁.cloak.Restorable pf.maxphyaddr own spec ∧
      s₁.cloak.registry = s.cloak.registry ∧
      (∀ e ∈ s₁.cloak.changeRegBPList, e.active = false) ∧
      (∀ w ∈ s₁.watch.eptWatchList, w.active = false) ∧
      s₁.watch.entry = s.watch.entry ∧ ∀ c, s₁.watch.eptWatchListLength c = 0 := by
  obtain ⟨cloak, hcloak, h₁, hregistry, hinactive⟩ := resetBreakpoints_spec h
  obtain ⟨hentry, hlength₁⟩ := resetWatches_entry pf.executeOnly s.watch hlength
  refine ⟨{ s with watch := resetWatches pf.executeOnly s.watch, cloak }, ?_, h₁, hregistry,
    hinactive, resetWatches_inactive pf.executeOnly s.watch, hentry, hlength₁⟩
  have hmap : cloak.registry.map = none := by
    rcases h₁.links.registry with ⟨l, href⟩ | ⟨hinitial, -⟩
    · exact href.map
    · rw [hinitial]
      rfl
  simp only [EptState.reset, hcloak, Option.bind_eq_bind, Option.bind_some, hmap]

theorem Inv.reset (h : s.Inv pf own) :
    ∃ s', s.reset pf = some s' ∧ s'.Inv pf own ∧
      (∀ w ∈ s'.watch.eptWatchList, w.active = false) ∧
      (∀ e ∈ s'.cloak.changeRegBPList, e.active = false) ∧
      ((s'.cloak.registry.list = none ∧ s'.cloak.registry.map = none) ∨
        ∀ a, s'.cloak.registry.lookup a = some none) ∧
      (∀ x, s'.cloak.memory x = own x) ∧
      ∀ c page, s'.watch.entry c page =
        if (cloakedData s.cloak.registry page).isSome then (s.watch.entry c page).decloak page
        else s.watch.entry c page := by
  obtain ⟨spec, hcloak⟩ := h.cloak
  obtain ⟨s₁, hreset, h₁, hregistry, hinactive, hwatches, hentry, hlength⟩ :=
    reset_eq hcloak h.length
  rw [hreset, ← hregistry, ← hentry]
  rcases h₁.links.registry with ⟨l, href⟩ | ⟨hinitial, rfl⟩
  · have hfuel : spec.pages.length ≤ s₁.listSize := by
      have hsize := listSize_of_refines href
      have hpages := href.size
      omega
    obtain ⟨s', hs', hdecloaks⟩ := resetList_spec _ h₁ href hfuel
    obtain ⟨l', href'⟩ := hdecloaks.refines
    refine ⟨s', hs', ⟨?_, _, hdecloaks.restorable⟩, ?_, ?_, .inr href'.lookup, ?_, ?_⟩
    · rw [hdecloaks.length]
      exact hlength
    · rw [hdecloaks.watches]
      exact hwatches
    · intro e he
      rw [Bool.eq_false_iff]
      intro hactive
      obtain ⟨j, hj⟩ := List.getElem?_of_mem he
      have hold := hinactive e (List.mem_of_getElem? (hdecloaks.breakpoints j e hj hactive))
      exact Bool.false_ne_true (hold.symm.trans hactive)
    · intro x
      apply hdecloaks.restorable.outside
      rintro ⟨a, p, hp, -⟩
      exact nomatch hp
    · intro c page
      rw [hdecloaks.entry, cloakedData_of_refines href]
  · -- no list was ever created
    have hsize : s₁.listSize = 0 := by
      rw [listSize, hinitial]
      rfl
    refine ⟨s₁, ?_, ⟨hlength, _, h₁⟩, hwatches, hinactive, .inl ?_, ?_, ?_⟩
    · rw [hsize, resetList, if_pos hsize]
    · rw [hinitial]
      exact ⟨rfl, rfl⟩
    · intro x
      apply h₁.outside
      rintro ⟨a, p, hp, -⟩
      exact nomatch hp
    · intro c page
      rw [hinitial]
      rfl

theorem eptWatchListLength_step (executeOnly : Bool) (s : WatchState κ) (input : WatchInput κ) :
    (s.step executeOnly input).eptWatchListLength = s.eptWatchListLength := by
  cases input with
  | activate args restore =>
    simp only [WatchState.step, WatchState.activate]
    split <;> rfl
  | deactivate ID =>
    simp only [WatchState.step, WatchState.deactivate]
    split
    · rfl
    · split <;> rfl
  | event c physicalAddress violation canBreak kernelMode =>
    simp only [WatchState.step, WatchState.handleWatchEvent]
    split
    · rfl
    · split
      · rfl
      · split <;> rfl
  | afterStep c =>
    simp only [WatchState.step, WatchState.handleWatchEventAfterStep]
    split
    · rfl
    · split
      · rfl
      · split <;> rfl

/-- Two states with the same cloaked pages, and the same `eptWatchListLength`. -/
def SamePages (s s' : EptState κ) : Prop :=
  s'.cloak = s.cloak ∧ s'.watch.eptWatchListLength = s.watch.eptWatchListLength

omit [DecidableEq κ] in
theorem Inv.samePages {s' : EptState κ} (h : s.Inv pf own) (hsame : SamePages s s') :
    s'.Inv pf own := by
  obtain ⟨hcloak, hlength⟩ := hsame
  refine ⟨?_, ?_⟩
  · rw [hlength]
    exact h.length
  · rw [hcloak]
    exact h.cloak

theorem samePages_handleCloakEvent {s' : EptState κ} {c : κ} {event : CloakEvent}
    (hs' : s.handleCloakEvent pf c event = some s') : SamePages s s' := by
  have hsame : SamePages s s := ⟨rfl, rfl⟩
  unfold handleCloakEvent at hs'
  split at hs'
  · exact Option.some.inj hs' ▸ hsame
  split at hs'
  · exact Option.some.inj hs' ▸ hsame
  · simp only [leaveRegion, Option.bind_eq_bind, Option.bind_eq_some_iff] at hs'
    obtain ⟨d, -, heq⟩ := hs'
    rw [← Option.some.inj heq]
    split <;> exact ⟨rfl, rfl⟩
  · rw [Option.bind_eq_bind, Option.bind_eq_some_iff] at hs'
    obtain ⟨found, -, hrest⟩ := hs'
    cases found with
    | none => exact Option.some.inj hrest ▸ hsame
    | some p =>
      simp only [cloakedPageEvent, Option.bind_eq_bind, Option.bind_eq_some_iff] at hrest
      obtain ⟨d, -, hrest⟩ := hrest
      split at hrest
      · split at hrest <;> exact Option.some.inj hrest ▸ ⟨rfl, rfl⟩
      · exact Option.some.inj hrest ▸ ⟨rfl, rfl⟩

theorem samePages_handleCloakEventAfterStep {s' : EptState κ} {c : κ}
    (hs' : s.handleCloakEventAfterStep pf c = some s') : SamePages s s' := by
  unfold handleCloakEventAfterStep at hs'
  split at hs'
  · exact Option.some.inj hs' ▸ ⟨rfl, rfl⟩
  · rw [Option.bind_eq_bind, Option.bind_eq_some_iff] at hs'
    obtain ⟨d, -, heq⟩ := hs'
    exact Option.some.inj heq ▸ ⟨rfl, rfl⟩

/-- Every call or event that returns. -/
theorem Inv.step {s' : EptState κ} {input : EptInput κ} (h : s.Inv pf own)
    (hs' : s.step pf input = some s') : s'.Inv pf own := by
  cases input with
  | watch input =>
    rw [← Option.some.inj hs']
    exact h.samePages ⟨rfl, eptWatchListLength_step pf.executeOnly s.watch input⟩
  | cloak input mode =>
    simp only [EptState.step, cloakCall, Option.bind_eq_bind, Option.bind_eq_some_iff] at hs'
    obtain ⟨cloak, hcloak, heq⟩ := hs'
    rw [← Option.some.inj heq]
    obtain ⟨spec, hspec⟩ := h.cloak
    exact ⟨h.length, hspec.step hcloak⟩
  | cloakEvent c event => exact h.samePages (samePages_handleCloakEvent hs')
  | cloakAfterStep c => exact h.samePages (samePages_handleCloakEventAfterStep hs')
  | reset =>
    obtain ⟨s'', hs'', h'', -⟩ := h.reset
    exact Option.some.inj (hs''.symm.trans hs') ▸ h''

theorem resetRemoves_iff (memory : Nat → UInt8) (entry : κ → Nat → PageEntry)
    (inputs : List (EptInput κ)) (s : EptState κ)
    (hrun : execM (step pf) (initial memory entry) inputs = some s) :
    s.ResetRemoves pf memory ↔ s.ShowsOwnPages := by
  have hinitial : (initial memory entry).Inv pf memory :=
    ⟨fun _ => rfl, _, CloakState.restorable_initial memory⟩
  have h : s.Inv pf memory := execM_preserves (fun _ _ _ h hs => h.step hs) hinitial hrun
  obtain ⟨s', hs', -, hwatches, hbreakpoints, hlookup, hbytes, hentry⟩ := h.reset
  -- the entries of a cloaked page are decloaked
  have hdecloak : ∀ c a p, s.cloak.registry.lookup a = some (some p) →
      s'.watch.entry c (pageOf a) = (s.watch.entry c (pageOf a)).decloak (pageOf a) := by
    intro c a p ha
    obtain ⟨spec, hspec⟩ := h.cloak
    rcases hspec.links.registry with ⟨l, href⟩ | ⟨hinitial, -⟩
    · have hmem := CloakState.mem_of_lookup href ha
      have haligned := hspec.links.aligned a p hmem
      have hpage : pageOf a * 4096 = a := by
        rw [pageOf]
        omega
      rw [hentry, cloakedData, hpage, ha]
      rfl
    · rw [hinitial] at ha
      exact nomatch ha
  constructor
  · rintro ⟨s'', hs'', hremoved⟩ c a p ha
    have heq : s'' = s' := Option.some.inj (hs''.symm.trans hs')
    subst heq
    have hmaps := hremoved.entries c a p ha
    rw [hdecloak c a p ha] at hmaps
    exact PageEntry.maps_decloak.1 hmaps
  · intro hshows
    refine ⟨s', hs', hwatches, hbreakpoints, hlookup, fun a p _ offset _ => hbytes _, ?_⟩
    intro c a p ha
    rw [hdecloak c a p ha]
    exact PageEntry.maps_decloak.2 (hshows c a p ha)

/-! ## The map -/

omit [DecidableEq κ] in
theorem registry_resetBreakpoints {s s' : CloakState κ} (hs' : resetBreakpoints s = some s') :
    s'.registry = s.registry := by
  have hat : ∀ (physicalAddress : Nat) (s₁ : CloakState κ) (i : Nat) (s₂ : CloakState κ),
      s₁.registry = s.registry → s₁.removeAt physicalAddress i = some s₂ →
      s₂.registry = s.registry := by
    intro physicalAddress s₁ i s₂ h₁ hs₂
    unfold CloakState.removeAt at hs₂
    split at hs₂
    · exact Option.some.inj hs₂ ▸ h₁
    · split at hs₂
      · simp only [CloakState.writeExecutable, Option.bind_eq_bind, Option.bind_eq_some_iff,
          Option.map_eq_some_iff] at hs₂
        obtain ⟨s₃, ⟨d, -, rfl⟩, heq⟩ := hs₂
        exact Option.some.inj heq ▸ h₁
      · exact Option.some.inj hs₂ ▸ h₁
  have hone : ∀ (s₁ : CloakState κ) (i : Nat) (s₂ : CloakState κ), s₁.registry = s.registry →
      s₁.removeWhich (fun _ => true) i = some s₂ → s₂.registry = s.registry := by
    intro s₁ i s₂ h₁ hs₂
    unfold CloakState.removeWhich at hs₂
    split at hs₂
    · exact Option.some.inj hs₂ ▸ h₁
    · split at hs₂
      · exact execM_preserves (I := fun s₁ => s₁.registry = s.registry) (hat _) h₁ hs₂
      · exact Option.some.inj hs₂ ▸ h₁
  exact execM_preserves (I := fun s₁ => s₁.registry = s.registry) hone rfl hs'

theorem getEntry_foldl_setEntry (keys : List Nat) (map : MapInfo) (address : Nat)
    (hkeys : ∀ key ∈ keys, key / 4096 % 512 ^ (map.maxlevel + 1) ≠
      address / 4096 % 512 ^ (map.maxlevel + 1)) :
    (keys.foldl (fun map key => map.setEntry key none) map).getEntry address =
      map.getEntry address := by
  induction keys generalizing map with
  | nil => rfl
  | cons key keys ih =>
    have hrest := ih (map.setEntry key none) fun k hk => hkeys k (List.mem_cons_of_mem key hk)
    rw [List.foldl_cons, hrest, MapInfo.getEntry_setEntry, if_neg (hkeys key List.mem_cons_self)]

/-- The walk over the map leaves its last page, if that is not page 0: no key is
    as large as the address of that page. -/
theorem exists_getEntry_resetMap (map : MapInfo) {address p : Nat}
    (hget : map.getEntry address = some p) (hpage : address / 4096 % 512 ^ (map.maxlevel + 1) ≠ 0) :
    ∃ a q, (resetMap map).getEntry a = some q := by
  have hpos : 0 < 512 ^ (map.maxlevel + 1) := Nat.pow_pos (by decide)
  have hmem : address / 4096 % 512 ^ (map.maxlevel + 1) ∈ map.top.keys map.maxlevel 0 := by
    refine (MapData.mem_keys map.top 0 _).2 ⟨_, Nat.mod_lt _ hpos, (Nat.zero_add _).symm, ?_⟩
    rw [MapData.get_congr (Nat.mod_mod ..)]
    exact fun hnone => nomatch hget.symm.trans hnone
  obtain ⟨last, hlast⟩ : ∃ last, (map.top.keys map.maxlevel 0).max? = some last := by
    cases hmax : (map.top.keys map.maxlevel 0).max? with
    | none =>
      rw [List.max?_eq_none_iff] at hmax
      rw [hmax] at hmem
      exact nomatch hmem
    | some last => exact ⟨last, rfl⟩
  obtain ⟨hin, hle⟩ := List.max?_eq_some_iff.1 hlast
  obtain ⟨page, hlt, hkey, hold⟩ := (MapData.mem_keys map.top 0 last).1 hin
  rw [Nat.zero_add] at hkey
  subst hkey
  obtain ⟨q, hq⟩ := Option.ne_none_iff_exists'.1 hold
  refine ⟨last * 4096, q, ?_⟩
  have hentry : map.getEntry (last * 4096) = some q := by
    rw [MapInfo.getEntry, Nat.mul_div_cancel _ (by decide)]
    exact hq
  rw [resetMap, getEntry_foldl_setEntry, hentry]
  intro key hkey heq
  have hkeyle := hle key hkey
  have hposlast := hle _ hmem
  rw [Nat.mul_div_cancel _ (by decide), Nat.mod_eq_of_lt hlt, Nat.mod_eq_of_lt (by omega)] at heq
  omega

theorem not_resetRemoves_of_map (memory : Nat → UInt8) {map : MapInfo} {address p : Nat}
    (hmap : s.cloak.registry.map = some map) (hget : map.getEntry address = some p)
    (hpage : address / 4096 % 512 ^ (map.maxlevel + 1) ≠ 0) : ¬ s.ResetRemoves pf memory := by
  rintro ⟨s', hs', hremoved⟩
  simp only [EptState.reset, Option.bind_eq_bind, Option.bind_eq_some_iff] at hs'
  obtain ⟨cloak, hcloak, hrest⟩ := hs'
  rw [registry_resetBreakpoints hcloak, hmap] at hrest
  have heq := Option.some.inj hrest
  obtain ⟨a, q, hstays⟩ := exists_getEntry_resetMap map hget hpage
  have hmap' : s'.cloak.registry.map = some (resetMap map) := by rw [← heq]
  rcases hremoved.lookup with ⟨-, hnone⟩ | hnull
  · cases hnone.symm.trans hmap'
  · have hlookup := hnull a
    rw [CloakRegistry.lookup, hmap'] at hlookup
    cases hstays.symm.trans (Option.some.inj hlookup)

/-- After every run, `ept_reset` removes everything if and only if on no CPU an
    Intel entry of a cloaked page shows another page.  From the map it never
    removes a page other than page 0. -/
theorem reset_removes_iff (pf : Platform) (memory : Nat → UInt8) :
    (∀ (entry : κ → Nat → PageEntry) (inputs : List (EptInput κ)) (s : EptState κ),
      execM (step pf) (initial memory entry) inputs = some s →
      (s.ResetRemoves pf memory ↔ s.ShowsOwnPages)) ∧
    ∀ (s : EptState κ) (map : MapInfo) (address p : Nat), s.cloak.registry.map = some map →
      map.getEntry address = some p → address / 4096 % 512 ^ (map.maxlevel + 1) ≠ 0 →
      ¬ s.ResetRemoves pf memory :=
  ⟨fun entry inputs s hrun => resetRemoves_iff memory entry inputs s hrun,
    fun _ _ _ _ hmap hget hpage => not_resetRemoves_of_map memory hmap hget hpage⟩

end Cpu

/-- An Intel CPU with execute-only support; the copies are on page 1000. -/
def intel : Platform := ⟨true, 36, fun _ => 1000⟩

/-- Memory of nop instructions on one CPU whose pages map themselves. -/
def oneCpu : EptState Unit := initial (fun _ => 0x90) fun _ page => .ept page true true true

def cloakRead : List (EptInput Unit) :=
  [.cloak (.activate 4096) 0,
    .cloakEvent () ⟨4096, 0, 0, .ept true false false false false true⟩]

def cloakReadStep : List (EptInput Unit) := cloakRead ++ [.cloakAfterStep ()]

theorem cloakReadStep_returns : (execM (step intel) oneCpu cloakReadStep).isSome = true := by
  decide

/-- After the step the reset depends on the entries only. -/
theorem cloakReadStep_reset :
    (Option.get _ cloakReadStep_returns).ResetRemoves intel (fun _ => 0x90) ↔
      (Option.get _ cloakReadStep_returns).ShowsOwnPages :=
  (reset_removes_iff intel fun _ => 0x90).1 (fun _ page => .ept page true true true) cloakReadStep _
    (Option.some_get cloakReadStep_returns).symm

theorem cloakRead_returns : (execM (step intel) oneCpu cloakRead).isSome = true := by
  decide

theorem cloakRead_reset_returns :
    ((Option.get _ cloakRead_returns).reset intel).isSome = true := by
  decide

/-- During the step of the read, `ept_reset` leaves the entry of the page on its
    freed copy. -/
theorem reset_leaves_copy :
    ¬ (Option.get _ cloakRead_returns).ResetRemoves intel (fun _ => 0x90) := by
  rintro ⟨s', hs', hremoved⟩
  have heq : s' = Option.get _ cloakRead_reset_returns := by
    rw [Option.eq_some_iff_get_eq] at hs'
    exact hs'.2.symm
  have hmaps := hremoved.entries () 4096 1 (by decide)
  rw [heq] at hmaps
  have hpage : ((Option.get _ cloakRead_reset_returns).watch.entry () 1).page = 1 := hmaps.1
  exact absurd hpage (by decide)

end EptState

end CheatEngine.Dbvm
