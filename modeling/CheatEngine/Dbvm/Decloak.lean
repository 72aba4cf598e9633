/-
  CheatEngine.Dbvm.Decloak

  `ept_cloak_deactivate` between the cloak events and their steps, on Intel.  From
  an event to its after-step handler the entry of the page shows the copy, and the
  step keeps the pointer to the cloak data.  The entry of a page without such a
  step is closed and shows the page itself, so that opening it gives the guest its
  own page; with one, the after-step handler uses the freed data.
-/
import CheatEngine.Dbvm.Reset

namespace CheatEngine.Dbvm

open CheatEngine.Lib

namespace PageEntry

/-- An Intel entry that shows only its own page while it can be read. -/
def Own (page : Nat) : PageEntry → Prop
  | .ept PFN RA _ _ => RA = true → PFN = page
  | .np _ _ _ _ => False

theorem Own.cloak {page : Nat} {e : PageEntry} (h : e.Own page) (executeOnly : Bool)
    (dataPage : Nat) : e.cloak executeOnly page dataPage = .ept page false false executeOnly := by
  cases e with
  | np PFN P RW EXB => exact h.elim
  | ept PFN RA WA XA =>
    cases RA with
    | false => rfl
    | true =>
      rw [show PFN = page from h rfl]
      rfl

end PageEntry

namespace EptState

variable {κ : Type}

/-- `ept_handleCloakEvent` for an Intel violation, or its after-step handler. -/
def Handler : EptInput κ → Prop
  | .cloakEvent _ event => ∃ R W X RA WA XA, event.violation = .ept R W X RA WA XA
  | .cloakAfterStep _ => True
  | _ => False

/-- A handler, `ept_cloak_activate` or `ept_cloak_deactivate`. -/
def Cloaking : EptInput κ → Prop
  | .cloak (.activate _) _ => True
  | .cloak (.deactivate _) _ => True
  | input => Handler input

/-- No page is decloaked while a CPU has a step of it to finish. -/
def NoPending (pf : Platform) (s : EptState κ) : EptInput κ → Prop
  | .cloak (.deactivate a) _ =>
    ∀ p, s.cloak.registry.lookup (pageBase pf.maxphyaddr a) = some (some p) →
      ∀ c, p ∉ s.reasons c
  | _ => True

/-- Whatever the handlers do after the page was decloaked, none uses freed data,
    and when no step is left the entries of the page are its own and allow
    everything. -/
def Decloaked [DecidableEq κ] (pf : Platform) (s : EptState κ) (a : Nat) : Prop :=
  ∀ handlers : List (EptInput κ), (∀ input ∈ handlers, Handler input) →
    ∃ s', execM (step pf) s (.cloak (.deactivate a) 0 :: handlers) = some s' ∧
      ((∀ c, s'.reasons c = []) → ∀ c,
        s'.watch.entry c (pageOf (pageBase pf.maxphyaddr a)) =
          .ept (pageOf (pageBase pf.maxphyaddr a)) true true true)

/-! ## Invariant -/

/-- The entry of a cloaked page is closed while no step of it is pending, the
    entries of the other pages are their own, and pending steps are of cloaked
    pages. -/
structure Steady (pf : Platform) (s : EptState κ) (spec : CloakSpec) : Prop where
  links : s.cloak.Links pf.maxphyaddr spec
  intel : ∀ c page, ∃ PFN RA WA XA, s.watch.entry c page = .ept PFN RA WA XA
  closed : ∀ a p, (a, p) ∈ spec.pages → ∀ c, p ∉ s.reasons c →
    s.watch.entry c (pageOf a) = .ept (pageOf a) false false pf.executeOnly
  others : ∀ page, spec.data (page * 4096) = none → ∀ c, (s.watch.entry c page).Own page
  pending : ∀ c, ∀ p ∈ s.reasons c, ∃ a, (a, p) ∈ spec.pages

variable {pf : Platform} {s : EptState κ} {spec : CloakSpec}

theorem steady_initial (memory : Nat → UInt8) {entry : κ → Nat → PageEntry}
    (hentry : ∀ c page, (entry c page).Own page) :
    (initial memory entry).Steady pf .initial where
  links := CloakState.links_initial memory
  intel c page := by
    have hown := hentry c page
    show ∃ PFN RA WA XA, entry c page = .ept PFN RA WA XA
    cases hget : entry c page with
    | ept PFN RA WA XA => exact ⟨PFN, RA, WA, XA, rfl⟩
    | np PFN P RW EXB =>
      rw [hget] at hown
      exact hown.elim
  closed _ _ h := nomatch h
  others page _ c := hentry c page
  pending _ _ h := nomatch h

theorem cloakedData_of_registers {r : CloakRegistry} (h : r.Registers spec) (page : Nat) :
    cloakedData r page = spec.data (page * 4096) := by
  rcases h with ⟨l, href⟩ | ⟨rfl, rfl⟩
  · exact cloakedData_of_refines href page
  · rfl

theorem Steady.pageOf_mul (h : s.Steady pf spec) {a p : Nat} (ha : (a, p) ∈ spec.pages) :
    pageOf a * 4096 = a := by
  have haligned := h.links.aligned a p ha
  rw [pageOf]
  omega

theorem Steady.ne_pageOf (h : s.Steady pf spec) {a p page : Nat} (ha : (a, p) ∈ spec.pages)
    (hpage : spec.data (page * 4096) = none) : page ≠ pageOf a := by
  rintro rfl
  rw [h.pageOf_mul ha] at hpage
  exact h.links.registry.distinct.data_eq_none.1 hpage p ha

section Cpu

variable [DecidableEq κ] {c : κ} {f : PageEntry → PageEntry}

theorem setEntry_of_ne {w : WatchState κ} {c' : κ} {page page' : Nat}
    (hne : ¬ (c' = c ∧ page' = page)) :
    w.setEntry c page f c' page' = w.entry c' page' := by
  rw [WatchState.setEntry]
  by_cases hc : c' = c
  · subst hc
    rw [Function.update_self]
    exact Function.update_of_ne (fun heq => hne ⟨rfl, heq⟩) _ _
  · rw [Function.update_of_ne hc]

theorem setEntry_self {w : WatchState κ} {page : Nat} :
    w.setEntry c page f c page = f (w.entry c page) := by
  rw [WatchState.setEntry, Function.update_self, Function.update_self]

variable {p : Nat} {s' : EptState κ}

theorem Steady.setEntry (h : s.Steady pf spec) {a : Nat} (ha : (a, p) ∈ spec.pages) (c : κ)
    {reasons : List Nat}
    (hcloak : s'.cloak = s.cloak) (hentry : s'.watch.entry = s.watch.setEntry c (pageOf a) f)
    (hreasons : s'.reasons = Function.update s.reasons c reasons)
    (hintel : ∃ PFN RA WA XA, f (s.watch.entry c (pageOf a)) = .ept PFN RA WA XA)
    (hclosed : p ∉ reasons →
      f (s.watch.entry c (pageOf a)) = .ept (pageOf a) false false pf.executeOnly)
    (hothers : ∀ q, q ≠ p → q ∉ reasons → q ∉ s.reasons c)
    (hpending : ∀ q ∈ reasons, ∃ b, (b, q) ∈ spec.pages) :
    s'.Steady pf spec ∧ ∀ page, spec.data (page * 4096) = none → ∀ c',
      s'.watch.entry c' page = s.watch.entry c' page := by
  have hothers' : ∀ page, spec.data (page * 4096) = none → ∀ c',
      s'.watch.entry c' page = s.watch.entry c' page := by
    intro page hpage c'
    rw [hentry, setEntry_of_ne fun heq => h.ne_pageOf ha hpage heq.2]
  refine ⟨⟨hcloak ▸ h.links, ?_, ?_, ?_, ?_⟩, hothers'⟩
  · intro c' page
    rw [hentry]
    by_cases hsame : c' = c ∧ page = pageOf a
    · obtain ⟨rfl, rfl⟩ := hsame
      rw [setEntry_self]
      exact hintel
    · rw [setEntry_of_ne hsame]
      exact h.intel c' page
  · intro b q hb c' hq
    rw [hreasons] at hq
    rw [hentry]
    by_cases hc : c' = c
    · subst hc
      rw [Function.update_self] at hq
      by_cases hba : b = a
      · -- the two pages are the same, and so is their data
        subst hba
        have hdistinct := h.links.registry.distinct
        have hqp : q = p :=
          Option.some.inj ((hdistinct.data_eq_some.2 hb).symm.trans (hdistinct.data_eq_some.2 ha))
        subst hqp
        rw [setEntry_self]
        exact hclosed hq
      · have hpages : pageOf b ≠ pageOf a := by
          intro heq
          exact hba ((h.pageOf_mul hb).symm.trans (heq ▸ h.pageOf_mul ha))
        have hqp : q ≠ p := by
          rintro rfl
          exact hba (h.links.registry.distinct.data b a q hb ha)
        rw [setEntry_of_ne fun heq => hpages heq.2]
        exact h.closed b q hb c' (hothers q hqp hq)
    · rw [Function.update_of_ne hc] at hq
      rw [setEntry_of_ne fun heq => hc heq.1]
      exact h.closed b q hb c' hq
  · intro page hpage c'
    rw [hothers' page hpage c']
    exact h.others page hpage c'
  · intro c' q hq
    rw [hreasons] at hq
    by_cases hc : c' = c
    · subst hc
      rw [Function.update_self] at hq
      exact hpending q hq
    · rw [Function.update_of_ne hc] at hq
      exact h.pending c' q hq

/-- Every handler returns, keeps the invariant, and leaves the entries of the
    pages that are not cloaked. -/
theorem Steady.handler (h : s.Steady pf spec) {input : EptInput κ} (hin : Handler input) :
    ∃ s', s.step pf input = some s' ∧ s'.Steady pf spec ∧
      ∀ page, spec.data (page * 4096) = none → ∀ c,
        s'.watch.entry c page = s.watch.entry c page := by
  cases input with
  | watch input => exact hin.elim
  | cloak input mode => exact hin.elim
  | reset => exact hin.elim
  | cloakEvent c event =>
    obtain ⟨address, addressVA, RIP, violation⟩ := event
    obtain ⟨R, W, X, RA, WA, XA, rfl⟩ := hin
    have hsame : ∃ s', some s = some s' ∧ s'.Steady pf spec ∧
        ∀ page, spec.data (page * 4096) = none → ∀ c,
          s'.watch.entry c page = s.watch.entry c page := ⟨s, rfl, h, fun _ _ _ => rfl⟩
    rw [step, handleCloakEvent]
    rcases h.links.registry with ⟨l, href⟩ | ⟨hinitial, rfl⟩
    · have hlist : ¬ (s.cloak.registry.list.isNone = true ∧
          s.cloak.registry.map.isNone = true) := by
        rw [href.list]
        exact fun hnone => Bool.false_ne_true hnone.1
      simp only [if_neg hlist, href.lookup, Option.bind_eq_bind, Option.bind_some]
      cases hdata : spec.data (pageBase pf.maxphyaddr address) with
      | none => exact hsame
      | some p =>
        have ha := href.distinct.data_eq_some.1 hdata
        obtain ⟨d, hd, hexecutable⟩ := (h.links.live _ p).1 ha
        simp only [cloakedPageEvent, hd, Option.bind_eq_bind, Option.bind_some]
        rw [hexecutable]
        refine ⟨_, rfl, h.setEntry ha c
          (f := fun _ => .ept (shownPage pf s.cloak.memory p d addressVA RIP X) true true true)
          rfl rfl rfl ⟨_, _, _, _, rfl⟩ ?_ ?_ ?_⟩
        · exact fun hnot => absurd List.mem_cons_self hnot
        · exact fun q _ hq hmem => hq (List.mem_cons_of_mem p hmem)
        · intro q hq
          rcases List.mem_cons.1 hq with rfl | hold
          · exact ⟨_, ha⟩
          · exact h.pending c q hold
    · have hlist : s.cloak.registry.list.isNone = true ∧
          s.cloak.registry.map.isNone = true := by
        rw [hinitial]
        exact ⟨rfl, rfl⟩
      rw [if_pos hlist]
      exact hsame
  | cloakAfterStep c =>
    rw [step, handleCloakEventAfterStep]
    cases hreasons : s.reasons c with
    | nil => exact ⟨s, rfl, h, fun _ _ _ => rfl⟩
    | cons p rest =>
      obtain ⟨a, ha⟩ := h.pending c p (hreasons ▸ List.mem_cons_self)
      obtain ⟨d, hd, hexecutable⟩ := (h.links.live a p).1 ha
      simp only [hd, Option.bind_eq_bind, Option.bind_some]
      rw [hexecutable]
      have hrecloak : (s.watch.entry c (pageOf a)).recloak pf.executeOnly (pageOf a)
          (pf.dataPage p) = .ept (pageOf a) false false pf.executeOnly := by
        obtain ⟨PFN, RA, WA, XA, hentry⟩ := h.intel c (pageOf a)
        rw [hentry]
        rfl
      refine ⟨_, rfl, h.setEntry ha c rfl rfl rfl ⟨_, _, _, _, hrecloak⟩
        (fun _ => hrecloak) ?_ ?_⟩
      · intro q hqp hq hmem
        rw [hreasons] at hmem
        exact (List.mem_cons.1 hmem).elim hqp hq
      · exact fun q hq => h.pending c q (hreasons ▸ List.mem_cons_of_mem p hq)

/-! ## Calls -/

omit [DecidableEq κ] in
theorem syncEntry_same (data : Option Nat) (page : Nat) (e : PageEntry) :
    syncEntry pf data data page e = e := by
  cases data <;> rfl

omit [DecidableEq κ] in
theorem syncEntry_intel {e : PageEntry} (h : ∃ PFN RA WA XA, e = .ept PFN RA WA XA)
    (before after : Option Nat) (page : Nat) :
    ∃ PFN RA WA XA, syncEntry pf before after page e = .ept PFN RA WA XA := by
  obtain ⟨PFN, RA, WA, XA, rfl⟩ := h
  cases before <;> cases after <;> exact ⟨_, _, _, _, rfl⟩

variable {x : Nat}

theorem Steady.activate (h : s.Steady pf spec) {mode : Nat}
    (hs' : s.cloakCall pf (.activate x) mode = some s') : ∃ spec', s'.Steady pf spec' := by
  rw [cloakCall, Option.bind_eq_bind, Option.bind_eq_some_iff] at hs'
  obtain ⟨cloak, hcloak, heq⟩ := hs'
  rw [← Option.some.inj heq]
  clear heq
  have hbefore := cloakedData_of_registers h.links.registry
  rcases h.links.activate hcloak with ⟨rfl, -⟩ | ⟨hfree, r, l, href, heq, hlinks⟩
  · -- the page was cloaked already
    refine ⟨spec, h.links, ?_, ?_, ?_, h.pending⟩
    · intro c page
      simp only [syncEntry_same]
      exact h.intel c page
    · intro a p ha c hp
      simp only [syncEntry_same]
      exact h.closed a p ha c hp
    · intro page hpage c
      simp only [syncEntry_same]
      exact h.others page hpage c
  · have hafter := cloakedData_of_registers hlinks.registry
    have hdistinct := h.links.registry.distinct
    have hnew := hlinks.registry.distinct
    generalize pageBase pf.maxphyaddr x = a at *
    refine ⟨_, hlinks, ?_, ?_, ?_, ?_⟩
    · exact fun c page => syncEntry_intel (h.intel c page) _ _ page
    · intro b p hb c hp
      show syncEntry pf (cloakedData s.cloak.registry (pageOf b)) (cloakedData cloak.registry _) _
        _ = _
      have hmul : pageOf b * 4096 = b := by
        have haligned := hlinks.aligned b p hb
        rw [pageOf]
        omega
      rw [hbefore, hafter, hmul, hnew.data_eq_some.2 hb]
      rcases List.mem_cons.1 hb with heqb | hold
      · obtain ⟨rfl, rfl⟩ := Prod.mk.inj heqb
        have hnone := hdistinct.data_eq_none.2 hfree
        have hown := h.others (pageOf b) (by rw [hmul]; exact hnone) c
        rw [hnone]
        exact hown.cloak _ _
      · rw [hdistinct.data_eq_some.2 hold, syncEntry_same]
        exact h.closed b p hold c hp
    · intro page hpage c
      show (syncEntry pf (cloakedData s.cloak.registry page) (cloakedData cloak.registry page) page
        _).Own page
      have hnone : spec.data (page * 4096) = none := by
        apply hdistinct.data_eq_none.2
        intro p hp
        exact hnew.data_eq_none.1 hpage p (List.mem_cons_of_mem _ hp)
      rw [hbefore, hafter, hpage, hnone]
      exact h.others page hnone c
    · intro c p hp
      obtain ⟨b, hb⟩ := h.pending c p hp
      exact ⟨b, List.mem_cons_of_mem _ hb⟩

theorem Steady.deactivate_none (h : s.Steady pf spec) {mode : Nat}
    (hdata : spec.data (pageBase pf.maxphyaddr x) = none)
    (hs' : s.cloakCall pf (.deactivate x) mode = some s') : s'.Steady pf spec := by
  rw [cloakCall, Option.bind_eq_bind, Option.bind_eq_some_iff] at hs'
  obtain ⟨cloak, hcloak, heq⟩ := hs'
  have hcloak' : s.cloak.deactivate pf.maxphyaddr x = some cloak := hcloak
  rw [← Option.some.inj heq]
  rcases h.links.registry with ⟨l, href⟩ | ⟨hinitial, -⟩
  · obtain ⟨r, l', href', ⟨-, hcall⟩ | ⟨p, -, -, hp, -⟩⟩ := h.links.deactivate href x
    · have heq : cloak = { s.cloak with registry := r } :=
        Option.some.inj (hcloak'.symm.trans hcall)
      subst heq
      rw [CloakSpec.filter_of_data_none hdata] at href'
      have hsame : ∀ page, cloakedData r page = cloakedData s.cloak.registry page := by
        intro page
        rw [cloakedData_of_refines href, cloakedData_of_refines href']
      refine ⟨⟨.inl ⟨l', href'⟩, h.links.live, h.links.aligned, h.links.breakpoint, h.links.once⟩,
        ?_, ?_, ?_, h.pending⟩
      · intro c page
        simp only [hsame, syncEntry_same]
        exact h.intel c page
      · intro a p ha c hp
        simp only [hsame, syncEntry_same]
        exact h.closed a p ha c hp
      · intro page hpage c
        simp only [hsame, syncEntry_same]
        exact h.others page hpage c
    · exact absurd hp (href.distinct.data_eq_none.1 hdata p)
  · -- there is no list yet, and the lookup does not return
    rw [CloakState.deactivate, hinitial] at hcloak'
    cases hcloak'

theorem Steady.deactivate (h : s.Steady pf spec)
    (hp : (pageBase pf.maxphyaddr x, p) ∈ spec.pages) (mode : Nat) :
    ∃ s', s.cloakCall pf (.deactivate x) mode = some s' ∧ s'.reasons = s.reasons ∧
      s'.cloak.cloakdata p = none ∧
      ((∀ c, p ∉ s.reasons c) →
        s'.Steady pf { spec with
          pages := spec.pages.filter (·.1 ≠ pageBase pf.maxphyaddr x) } ∧
        ∀ c, s'.watch.entry c (pageOf (pageBase pf.maxphyaddr x)) =
          .ept (pageOf (pageBase pf.maxphyaddr x)) true true true) := by
  have hdistinct := h.links.registry.distinct
  obtain ⟨l, href⟩ : ∃ l, s.cloak.registry.Refines spec l := by
    rcases h.links.registry with href | ⟨-, rfl⟩
    · exact href
    · exact nomatch hp
  obtain ⟨r, l', href', ⟨hdata, -⟩ | ⟨q, d, s₁, hq, -, -, hdrops, hnone, hcall⟩⟩ :=
    h.links.deactivate href x
  · exact absurd hp (hdistinct.data_eq_none.1 hdata p)
  have hqp : q = p :=
    Option.some.inj ((hdistinct.data_eq_some.2 hq).symm.trans (hdistinct.data_eq_some.2 hp))
  subst hqp
  have hstep : s.cloak.step pf.maxphyaddr (.deactivate x) = _ := hcall
  generalize ha : pageBase pf.maxphyaddr x = a at *
  rw [cloakCall, hstep]
  refine ⟨_, rfl, rfl, Function.update_self .., ?_⟩
  intro hpending
  -- the entry of the page was closed, and shows the page
  have hopen : ∀ c, syncEntry pf (cloakedData s.cloak.registry (pageOf a))
      (cloakedData r (pageOf a)) (pageOf a) (s.watch.entry c (pageOf a)) =
      .ept (pageOf a) true true true := by
    intro c
    rw [cloakedData_of_refines href, cloakedData_of_refines href', h.pageOf_mul hp,
      hdistinct.data_eq_some.2 hp, data_filter_self hdistinct, h.closed a q hp c (hpending c)]
    rfl
  refine ⟨⟨(hdrops.links h.links).decloak hp hnone href' rfl rfl, ?_, ?_, ?_, ?_⟩, hopen⟩
  · exact fun c page => syncEntry_intel (h.intel c page) _ _ page
  · intro b p hb c hpc
    obtain ⟨hold, hne⟩ := List.mem_filter.1 hb
    show syncEntry pf (cloakedData s.cloak.registry (pageOf b)) (cloakedData r (pageOf b)) _ _ = _
    rw [cloakedData_of_refines href, cloakedData_of_refines href', h.pageOf_mul hold,
      data_filter_ne hdistinct (of_decide_eq_true hne), syncEntry_same]
    exact h.closed b p hold c hpc
  · intro page hpage c
    show (syncEntry pf (cloakedData s.cloak.registry page) (cloakedData r page) page _).Own page
    by_cases heq : page * 4096 = a
    · have hpageOf : page = pageOf a := by
        rw [pageOf, ← heq, Nat.mul_div_cancel _ (by decide)]
      rw [hpageOf, hopen c]
      exact fun _ => rfl
    · rw [data_filter_ne hdistinct heq] at hpage
      rw [cloakedData_of_refines href, cloakedData_of_refines href', data_filter_ne hdistinct heq,
        syncEntry_same]
      exact h.others page hpage c
  · intro c p hpc
    obtain ⟨b, hb⟩ := h.pending c p hpc
    refine ⟨b, List.mem_filter.2 ⟨hb, decide_eq_true ?_⟩⟩
    rintro rfl
    have hpq : p = q :=
      Option.some.inj ((hdistinct.data_eq_some.2 hb).symm.trans (hdistinct.data_eq_some.2 hp))
    exact hpending c (hpq ▸ hpc)

theorem Steady.step (h : s.Steady pf spec) {input : EptInput κ} (hin : Cloaking input)
    (hpending : s.NoPending pf input) (hs' : s.step pf input = some s') :
    ∃ spec', s'.Steady pf spec' := by
  -- what is neither call is a handler
  have hhandler : Handler input → ∃ spec', s'.Steady pf spec' := by
    intro hin
    obtain ⟨s'', hs'', h'', -⟩ := h.handler hin
    exact ⟨spec, Option.some.inj (hs''.symm.trans hs') ▸ h''⟩
  cases input with
  | cloak input mode =>
    cases input with
    | activate a => exact h.activate hs'
    | deactivate a =>
      cases hdata : spec.data (pageBase pf.maxphyaddr a) with
      | none => exact ⟨spec, h.deactivate_none hdata hs'⟩
      | some p =>
        have hp := h.links.registry.distinct.data_eq_some.1 hdata
        obtain ⟨s'', hs'', -, -, hsteady⟩ := h.deactivate hp mode
        have hlookup : s.cloak.registry.lookup (pageBase pf.maxphyaddr a) =
            some (some p) := by
          rcases h.links.registry with ⟨l, href⟩ | ⟨-, rfl⟩
          · rw [href.lookup, hdata]
          · exact nomatch hdata
        obtain ⟨h'', -⟩ := hsteady (hpending p hlookup)
        exact ⟨_, Option.some.inj (hs''.symm.trans hs') ▸ h''⟩
    | changeregonbp | removechangeregonbp | traceonbp | stoptrace | removeTrace | finishTrace
    | hit | afterStep => exact hin.elim
  | watch input => exact hhandler hin
  | cloakEvent c event => exact hhandler hin
  | cloakAfterStep c => exact hhandler hin
  | reset => exact hhandler hin

theorem Steady.handlers (h : s.Steady pf spec) {inputs : List (EptInput κ)}
    (hin : ∀ input ∈ inputs, Handler input) :
    ∃ s', execM (EptState.step pf) s inputs = some s' ∧ s'.Steady pf spec ∧
      ∀ page, spec.data (page * 4096) = none → ∀ c,
        s'.watch.entry c page = s.watch.entry c page := by
  have hone : ∀ (s₁ : EptState κ) (input : EptInput κ), (s₁.Steady pf spec ∧
      ∀ page, spec.data (page * 4096) = none → ∀ c,
        s₁.watch.entry c page = s.watch.entry c page) → Handler input →
      ∃ s₂, s₁.step pf input = some s₂ ∧ s₂.Steady pf spec ∧
        ∀ page, spec.data (page * 4096) = none → ∀ c,
          s₂.watch.entry c page = s.watch.entry c page := by
    rintro s₁ input ⟨h₁, hothers⟩ hin
    obtain ⟨s₂, hs₂, h₂, hothers'⟩ := h₁.handler hin
    refine ⟨s₂, hs₂, h₂, ?_⟩
    exact fun page hpage c => (hothers' page hpage c).trans (hothers page hpage c)
  exact execM_invariant hone ⟨h, fun _ _ _ => rfl⟩ (alongM_of_forall fun _ => hin)

/-- After-step handlers of a CPU reach each of its pending steps, and that of a page
    whose data is freed does not return. -/
theorem execM_cloakAfterStep_none {reasons : List Nat}
    (hreasons : s.reasons c = reasons) (hp : p ∈ reasons) (hfreed : s.cloak.cloakdata p = none) :
    execM (EptState.step pf) s (List.replicate reasons.length (.cloakAfterStep c)) = none := by
  induction reasons generalizing s with
  | nil => cases hp
  | cons q rest ih =>
    rw [List.length_cons, List.replicate_succ, execM_cons, EptState.step,
      handleCloakEventAfterStep, hreasons]
    cases hq : s.cloak.cloakdata q with
    | none => simp only [hq, Option.bind_eq_bind, Option.bind_none]
    | some d =>
      simp only [hq, Option.bind_eq_bind, Option.bind_some]
      have hne : p ≠ q := by
        rintro rfl
        cases hfreed.symm.trans hq
      have hrest : p ∈ rest := (List.mem_cons.1 hp).resolve_left hne
      apply ih
      · exact Function.update_self ..
      · exact hrest
      · exact hfreed

/-- In every run that decloaks no page with a pending step, decloaking a page gives
    it back if and only if no CPU has a pending step for it. -/
theorem decloaked_iff_no_pending (pf : Platform) (memory : Nat → UInt8)
    (entry : κ → Nat → PageEntry) (hentry : ∀ c page, (entry c page).Own page)
    (inputs : List (EptInput κ)) (s : EptState κ)
    (hrun : execM (EptState.step pf) (initial memory entry) inputs = some s)
    (hsafe : AlongM (EptState.step pf) (fun s input => Cloaking input ∧ s.NoPending pf input)
      (initial memory entry) inputs)
    (a p : Nat) (hp : s.cloak.registry.lookup (pageBase pf.maxphyaddr a) = some (some p)) :
    s.Decloaked pf a ↔ ∀ c, p ∉ s.reasons c := by
  obtain ⟨spec, h⟩ : ∃ spec, s.Steady pf spec := by
    refine execM_preserves_along (I := fun s => ∃ spec, s.Steady pf spec) ?_
      ⟨_, steady_initial memory hentry⟩ hsafe hrun
    rintro s input s' ⟨spec, h⟩ ⟨hin, hpending⟩ hs'
    exact h.step hin hpending hs'
  have hmem : (pageBase pf.maxphyaddr a, p) ∈ spec.pages := by
    rcases h.links.registry with ⟨l, href⟩ | ⟨hinitial, -⟩
    · exact CloakState.mem_of_lookup href hp
    · rw [hinitial] at hp
      cases hp
  obtain ⟨s₁, hs₁, hreasons, hfreed, hsteady⟩ := h.deactivate hmem 0
  have hfirst : ∀ handlers, execM (EptState.step pf) s (.cloak (.deactivate a) 0 :: handlers) =
      execM (EptState.step pf) s₁ handlers := by
    intro handlers
    rw [execM_cons, EptState.step, hs₁]
    rfl
  constructor
  · intro hdecloaked c hpending
    -- the handlers of this CPU, one for each of its steps
    obtain ⟨s', hs', -⟩ := hdecloaked
      (List.replicate (s₁.reasons c).length (.cloakAfterStep c)) (by
        intro input hinput
        rw [List.eq_of_mem_replicate hinput]
        trivial)
    rw [hfirst, execM_cloakAfterStep_none rfl (hreasons ▸ hpending) hfreed] at hs'
    cases hs'
  · intro hnone handlers hhandlers
    obtain ⟨h₁, hopen⟩ := hsteady hnone
    rw [hfirst]
    -- the page stays out of the cloaked ones, and no handler writes its entries
    obtain ⟨s', hs', -, hothers⟩ := h₁.handlers hhandlers
    refine ⟨s', hs', fun _ c => ?_⟩
    rw [hothers (pageOf (pageBase pf.maxphyaddr a)) ?_ c]
    · exact hopen c
    · rw [h.pageOf_mul hmem]
      exact data_filter_self h.links.registry.distinct _

end Cpu

/-- The step of the read was finished, and the page is given back. -/
theorem cloakReadStep_decloaked :
    (Option.get _ cloakReadStep_returns).Decloaked intel 4096 := by
  have hsafe : AlongM (step intel) (fun s input => Cloaking input ∧ s.NoPending intel input) oneCpu
      cloakReadStep := by
    apply alongM_of_forall
    intro s input hinput
    simp only [cloakReadStep, cloakRead, List.cons_append, List.nil_append, List.mem_cons,
      List.not_mem_nil, or_false] at hinput
    rcases hinput with rfl | rfl | rfl
    · exact ⟨trivial, trivial⟩
    · exact ⟨⟨_, _, _, _, _, _, rfl⟩, trivial⟩
    · exact ⟨trivial, trivial⟩
  refine (decloaked_iff_no_pending intel (fun _ => 0x90) (fun _ page => .ept page true true true)
    (fun _ _ _ => rfl) cloakReadStep _ (Option.some_get cloakReadStep_returns).symm hsafe 4096 1
    (by decide)).2 ?_
  intro c
  cases c
  decide

/-- Between the read and its step, decloaking the page leaves the step with the
    freed data. -/
theorem cloakRead_not_decloaked : ¬ (Option.get _ cloakRead_returns).Decloaked intel 4096 := by
  intro hdecloaked
  obtain ⟨s', hs', -⟩ := hdecloaked [.cloakAfterStep ()] (by
    intro input hinput
    rw [List.mem_singleton.1 hinput]
    trivial)
  have hnone : (execM (step intel) (Option.get _ cloakRead_returns)
      [.cloak (.deactivate 4096) 0, .cloakAfterStep ()]).isNone = true := by decide
  rw [hs'] at hnone
  exact Bool.false_ne_true hnone

end EptState

end CheatEngine.Dbvm
