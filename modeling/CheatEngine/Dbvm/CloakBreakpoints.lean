/-
  CheatEngine.Dbvm.CloakBreakpoints

  The bytes that breakpoints on cloaked pages save and write back (epthandler.c).
  A change-register breakpoint and the trace can be set at the same byte, and the
  second one then saves the int3 of the first.
-/
import CheatEngine.Dbvm.Cloak

namespace CheatEngine.Dbvm

open CheatEngine.Lib

namespace CloakState

variable {κ : Type}

/-! ## Saved bytes -/

/-- An active breakpoint at the byte `x`, other than that of index `skip`, saved
    the byte `b`. -/
def SavedByOther (maxphyaddr : Nat) (l : List ChangeRegBPEntry) (skip : Option Nat) (x : Nat)
    (b : UInt8) : Prop :=
  ∃ i e, l[i]? = some e ∧ e.active = true ∧ skip ≠ some i ∧
    byteAddress maxphyaddr e.physicalAddress = x ∧ e.originalbyte = b

/-- The trace waits at the byte `x` and saved the byte `b`. -/
def SavedByTrace (maxphyaddr : Nat) (trace : Option TraceOnBPEntry) (x : Nat) (b : UInt8) : Prop :=
  ∃ t, trace = some t ∧ t.triggered = false ∧ byteAddress maxphyaddr t.physicalAddress = x ∧
    t.originalbyte = b

/-- A breakpoint or the trace saved the byte `b` of `x`. -/
def Saved (maxphyaddr : Nat) (s : CloakState κ) (x : Nat) (b : UInt8) : Prop :=
  SavedByOther maxphyaddr s.changeRegBPList none x b ∨ SavedByTrace maxphyaddr s.traceOnBP x b

/-- Of those that stay at a byte one saved the page's own byte, if any stays. -/
def Leaves (own : UInt8) (stays : UInt8 → Prop) : Prop := stays own ∨ ∀ b, ¬ stays b

/-- A byte that is its own or an int3, and so are the bytes saved from it; while
    any is saved, its own is. -/
structure CleanAt (own byte : UInt8) (saved : UInt8 → Prop) : Prop where
  byte_eq : byte = own ∨ byte = int3
  saved_eq : ∀ b, saved b → b = own ∨ b = int3
  own_saved : saved own ∨ (∀ b, ¬ saved b) ∧ byte = own

section CleanAt

variable {own byte byte' b : UInt8} {saved saved' : UInt8 → Prop}

theorem CleanAt.congr (h : CleanAt own byte saved) (hsaved : ∀ b, saved' b ↔ saved b) :
    CleanAt own byte saved' := by
  have heq : saved' = saved := funext fun b => propext (hsaved b)
  rw [heq]
  exact h

theorem CleanAt.add (h : CleanAt own byte saved) (hsaved : ∀ b, saved' b ↔ b = byte ∨ saved b) :
    CleanAt own int3 saved' := by
  refine ⟨.inr rfl, ?_, ?_⟩
  · intro b hb
    rcases (hsaved b).1 hb with rfl | hold
    · exact h.byte_eq
    · exact h.saved_eq b hold
  · rcases h.own_saved with hown | ⟨-, hbyte⟩
    · exact .inl ((hsaved own).2 (.inr hown))
    · exact .inl ((hsaved own).2 (.inl hbyte.symm))

theorem CleanAt.rewrite (h : CleanAt own byte saved) (hb : saved b)
    (hbyte : byte' = b ∨ byte' = int3) : CleanAt own byte' saved := by
  refine ⟨?_, h.saved_eq, ?_⟩
  · rcases hbyte with rfl | rfl
    · exact h.saved_eq byte' hb
    · exact .inr rfl
  · rcases h.own_saved with hown | ⟨hnone, -⟩
    · exact .inl hown
    · exact absurd hb (hnone b)

theorem CleanAt.remove (h : CleanAt own byte saved) (hsaved : ∀ c, saved c ↔ c = b ∨ saved' c)
    (hleaves : Leaves own saved') : CleanAt own b saved' := by
  refine ⟨h.saved_eq b ((hsaved b).2 (.inl rfl)), fun c hc => h.saved_eq c ((hsaved c).2 (.inr hc)), ?_⟩
  rcases hleaves with hown | hnone
  · exact .inl hown
  · right
    refine ⟨hnone, ?_⟩
    rcases h.own_saved with hown | ⟨hempty, -⟩
    · rcases (hsaved own).1 hown with heq | hstays
      · exact heq.symm
      · exact absurd hstays (hnone own)
    · exact absurd ((hsaved b).2 (.inl rfl)) (hempty b)

end CleanAt

variable {maxphyaddr : Nat} {l : List ChangeRegBPEntry} {i x : Nat} {e : ChangeRegBPEntry}

theorem savedByOther_set_inactive (b : UInt8) (hi : i < l.length) (he : e.active = false) :
    SavedByOther maxphyaddr (l.set i e) none x b ↔ SavedByOther maxphyaddr l (some i) x b := by
  constructor
  · rintro ⟨j, e', hget, hactive, -, hx, hb⟩
    rw [List.getElem?_set] at hget
    split at hget
    · next hij =>
      rw [← Option.some.inj hget, he] at hactive
      exact absurd hactive Bool.false_ne_true
    · next hij =>
      exact ⟨j, e', hget, hactive, fun hcon => hij (Option.some.inj hcon), hx, hb⟩
  · rintro ⟨j, e', hget, hactive, hne, hx, hb⟩
    refine ⟨j, e', ?_, hactive, nofun, hx, hb⟩
    have hij : i ≠ j := fun hcon => hne (congrArg some hcon)
    rw [List.getElem?_set, if_neg hij]
    exact hget

theorem savedByOther_split (b : UInt8) (hget : l[i]? = some e) (hactive : e.active = true) :
    SavedByOther maxphyaddr l none x b ↔
      (byteAddress maxphyaddr e.physicalAddress = x ∧ b = e.originalbyte) ∨
        SavedByOther maxphyaddr l (some i) x b := by
  constructor
  · rintro ⟨j, e', hget', hactive', -, hx, hb⟩
    by_cases hij : i = j
    · subst hij
      have heq : e' = e := Option.some.inj (hget'.symm.trans hget)
      subst heq
      exact .inl ⟨hx, hb.symm⟩
    · exact .inr ⟨j, e', hget', hactive', fun hcon => hij (Option.some.inj hcon), hx, hb⟩
  · rintro (⟨hx, rfl⟩ | ⟨j, e', hget', hactive', -, hx, hb⟩)
    · exact ⟨i, e, hget, hactive, nofun, hx, rfl⟩
    · exact ⟨j, e', hget', hactive', nofun, hx, hb⟩

theorem savedByOther_putFree (b : UInt8) (hactive : e.active = true) :
    SavedByOther maxphyaddr (putFree (!·.active) l e) none x b ↔
      (byteAddress maxphyaddr e.physicalAddress = x ∧ b = e.originalbyte) ∨
        SavedByOther maxphyaddr l none x b := by
  constructor
  · rintro ⟨j, e', hget, hactive', -, hx, hb⟩
    rw [getElem?_putFree] at hget
    split at hget
    · rw [← Option.some.inj hget] at hx hb
      exact .inl ⟨hx, hb.symm⟩
    · exact .inr ⟨j, e', hget, hactive', nofun, hx, hb⟩
  · rintro (⟨hx, rfl⟩ | ⟨j, e', hget, hactive', -, hx, hb⟩)
    · exact ⟨_, e, by rw [getElem?_putFree, if_pos rfl], hactive, nofun, hx, rfl⟩
    · refine ⟨j, e', ?_, hactive', nofun, hx, hb⟩
      rw [getElem?_putFree, if_neg (ne_freeSlot _ hget (by rw [hactive']; rfl))]
      exact hget

/-- What a run keeps: besides the links, every copy has the bytes of its page,
    and every byte is clean. -/
structure Inv (maxphyaddr : Nat) (own : Nat → UInt8) (s : CloakState κ) (spec : CloakSpec) :
    Prop where
  links : s.Links maxphyaddr spec
  trace : ∀ t, s.traceOnBP = some t → t.triggered = false →
    (pageBase maxphyaddr t.physicalAddress, t.cloakdata) ∈ spec.pages
  copy : ∀ p d, s.cloakdata p = some d → ∀ offset, offset < 4096 →
    d.data offset = own (d.executable + offset)
  clean : ∀ x, CleanAt (own x) (s.memory x) (s.Saved maxphyaddr x)

variable {s : CloakState κ} {spec : CloakSpec} {own : Nat → UInt8} {p physicalAddress : Nat}

/-- The breakpoint at the address is alone at its byte, or another one there
    saved the page's own byte. -/
def RemovesBreakpoint (maxphyaddr : Nat) (own : Nat → UInt8) (s : CloakState κ)
    (physicalAddress : Nat) : Prop :=
  ∀ (i : Nat) (e : ChangeRegBPEntry), s.changeRegBPList[i]? = some e → e.active = true →
    e.physicalAddress = physicalAddress →
    Leaves (own (byteAddress maxphyaddr physicalAddress)) fun b =>
      SavedByOther maxphyaddr s.changeRegBPList (some i) (byteAddress maxphyaddr physicalAddress) b ∨
        SavedByTrace maxphyaddr s.traceOnBP (byteAddress maxphyaddr physicalAddress) b

/-- The trace, when it still waits, is alone at its byte, or a breakpoint there
    saved the page's own byte. -/
def RemovesTrace (maxphyaddr : Nat) (own : Nat → UInt8) (s : CloakState κ) : Prop :=
  ∀ t, s.traceOnBP = some t → t.triggered = false →
    Leaves (own (byteAddress maxphyaddr t.physicalAddress))
      (SavedByOther maxphyaddr s.changeRegBPList none (byteAddress maxphyaddr t.physicalAddress))

/-- The page is cloaked, or fewer than 32 pages are. -/
def RoomFor (maxphyaddr : Nat) (s : CloakState κ) (physicalAddress : Nat) : Prop :=
  (∃ p, s.registry.lookup (pageBase maxphyaddr physicalAddress) = some (some p)) ∨
    (s.registry.list.map AddressList.size).getD 0 < 32

/-- The trace was triggered and its steps are not over. -/
def Running (s : CloakState κ) : Prop :=
  ∃ t, s.traceOnBP = some t ∧ t.triggered = true ∧ t.finished = false

/-- The calls and events that keep the pages clean. -/
def Keeps (maxphyaddr : Nat) (own : Nat → UInt8) (s : CloakState κ) : BreakpointInput κ → Prop
  | .activate physicalAddress => s.RoomFor maxphyaddr physicalAddress
  | .deactivate physicalAddress => s.registry.list ≠ none ∧
      ∀ t, s.traceOnBP = some t → t.triggered = false →
        pageBase maxphyaddr t.physicalAddress ≠ pageBase maxphyaddr physicalAddress
  | .changeregonbp physicalAddress _ =>
    s.RemovesBreakpoint maxphyaddr own physicalAddress ∧ s.RoomFor maxphyaddr physicalAddress
  | .removechangeregonbp physicalAddress => s.RemovesBreakpoint maxphyaddr own physicalAddress
  | .traceonbp physicalAddress _ =>
    s.Running ∨ s.RemovesTrace maxphyaddr own ∧ s.RoomFor maxphyaddr physicalAddress
  | .stoptrace => True
  | .removeTrace _ => s.RemovesTrace maxphyaddr own
  | .finishTrace => True
  | .hit _ PA _ => (∃ t, s.traceOnBP = some t ∧ t.physicalAddress = PA) →
      s.RemovesTrace maxphyaddr own
  | .afterStep _ => True

/-! ## Steps -/

theorem Inv.clean_update {s' : CloakState κ} {byte : UInt8} (h : s.Inv maxphyaddr own spec)
    (hmemory : s'.memory = Function.update s.memory x byte)
    (hthis : CleanAt (own x) byte (s'.Saved maxphyaddr x))
    (hother : ∀ y, y ≠ x → ∀ b, s'.Saved maxphyaddr y b ↔ s.Saved maxphyaddr y b) (y : Nat) :
    CleanAt (own y) (s'.memory y) (s'.Saved maxphyaddr y) := by
  rw [hmemory]
  by_cases hy : y = x
  · subst hy
    rw [Function.update_self]
    exact hthis
  · rw [Function.update_of_ne hy]
    exact (h.clean y).congr (hother y hy)

theorem Inv.removechangeregonbp (h : s.Inv maxphyaddr own spec)
    (hkeeps : s.RemovesBreakpoint maxphyaddr own physicalAddress) :
    ∃ s', s.removechangeregonbp physicalAddress = some s' ∧ s'.Inv maxphyaddr own spec ∧
      Unset s'.changeRegBPList physicalAddress ∧ s'.registry = s.registry := by
  by_cases hset : ∃ (i : Nat) (e : ChangeRegBPEntry), s.changeRegBPList[i]? = some e ∧
      e.active = true ∧ e.physicalAddress = physicalAddress
  · obtain ⟨i, e, hget, hactive, rfl⟩ := hset
    have honce : ∀ j e', s.changeRegBPList[j]? = some e' → e'.active = true →
        e'.physicalAddress = e.physicalAddress → j = i :=
      fun j e' hj hactive' heq => h.links.once j i e' e hj hget hactive' hactive heq
    have hwrite := h.links.write e.originalbyte (h.links.breakpoint e (List.mem_of_getElem? hget)
      hactive)
    refine ⟨_, removechangeregonbp_of_set hget hactive honce hwrite rfl, ⟨?_, h.trace, h.copy, ?_⟩, ?_, rfl⟩
    · exact h.links.of_set_inactive rfl rfl fun j e' hj hactive' =>
        getElem?_set_inactive hj hactive'
    · have hi : i < s.changeRegBPList.length := (List.getElem?_eq_some_iff.1 hget).1
      apply h.clean_update rfl
      · refine (h.clean _).remove ?_ (hkeeps i e hget hactive rfl) |>.congr ?_
        · intro b
          show SavedByOther _ _ none _ b ∨ _ ↔ _
          rw [savedByOther_split b hget hactive, or_assoc]
          simp
        · intro b
          show SavedByOther _ _ none _ b ∨ _ ↔ _
          rw [savedByOther_set_inactive b hi rfl]
      · intro y hy b
        show SavedByOther _ _ none y b ∨ _ ↔ SavedByOther _ _ none y b ∨ _
        rw [savedByOther_set_inactive b hi rfl, savedByOther_split b hget hactive]
        simp [Ne.symm hy]
    · intro e' he' hactive' heq
      obtain ⟨j, hj⟩ := List.getElem?_of_mem he'
      have hold := getElem?_set_inactive hj hactive'
      have hji : j = i := honce j e' hold hactive' heq
      subst hji
      have hset : (s.changeRegBPList.set j { e with active := false })[j]? = some e' := hj
      rw [List.getElem?_set_self (List.getElem?_eq_some_iff.1 hget).1] at hset
      rw [← Option.some.inj hset] at hactive'
      exact absurd hactive' Bool.false_ne_true
  · have hunset : Unset s.changeRegBPList physicalAddress := by
      intro e he hactive heq
      obtain ⟨i, hi⟩ := List.getElem?_of_mem he
      exact hset ⟨i, e, hi, hactive, heq⟩
    exact ⟨s, removechangeregonbp_of_unset hunset, h, hunset, rfl⟩

variable {a : Nat}

theorem Inv.own_of_uncloaked (h : s.Inv maxphyaddr own spec) {offset : Nat} (ha : a % 4096 = 0)
    (hoffset : offset < 4096) (hfree : ∀ p, (a, p) ∉ spec.pages) :
    s.memory (a + offset) = own (a + offset) := by
  rcases (h.clean (a + offset)).own_saved with hsaved | ⟨-, hbyte⟩
  · exfalso
    rcases hsaved with ⟨i, e, hget, hactive, -, hx, -⟩ | ⟨t, ht, htriggered, hx, -⟩
    · have hpage := pageBase_of_byteAddress ha (Nat.le_add_right ..) (by omega) hx
      have hmem := h.links.breakpoint e (List.mem_of_getElem? hget) hactive
      rw [hpage] at hmem
      exact hfree _ hmem
    · have hpage := pageBase_of_byteAddress ha (Nat.le_add_right ..) (by omega) hx
      have hmem := h.trace t ht htriggered
      rw [hpage] at hmem
      exact hfree _ hmem
  · exact hbyte

theorem Links.room (h : s.Links maxphyaddr spec) (hroom : s.RoomFor maxphyaddr physicalAddress) :
    (∃ p, spec.data (pageBase maxphyaddr physicalAddress) = some p) ∨ spec.pages.length < 32 := by
  rcases h.registry with ⟨l, href⟩ | ⟨-, rfl⟩
  · rcases hroom with ⟨p, hp⟩ | hsize
    · rw [href.lookup] at hp
      exact .inl ⟨p, Option.some.inj hp⟩
    · right
      rw [href.list, Option.map_some, Option.getD_some, href.size] at hsize
      exact hsize
  · exact .inr (by decide)

theorem Links.activate_returns (h : s.Links maxphyaddr spec)
    (hroom : s.RoomFor maxphyaddr physicalAddress) :
    ∃ s', s.activate maxphyaddr physicalAddress = some s' := by
  cases hdata : spec.data (pageBase maxphyaddr physicalAddress) with
  | some p =>
    rw [CloakState.activate, h.registry.activate_cloaked hdata]
    exact ⟨_, rfl⟩
  | none =>
    have hlength : spec.pages.length < 32 := by
      rcases h.room hroom with ⟨p, hp⟩ | hlength
      · cases hdata.symm.trans hp
      · exact hlength
    obtain ⟨r, l, hactivate, -⟩ := h.registry.activate_new hdata hlength
    rw [CloakState.activate, hactivate]
    exact ⟨_, rfl⟩

theorem Inv.activate (h : s.Inv maxphyaddr own spec)
    (hroom : s.RoomFor maxphyaddr physicalAddress) :
    ∃ s' spec' l p, s.activate maxphyaddr physicalAddress = some s' ∧ s'.Inv maxphyaddr own spec' ∧
      s'.registry.Refines spec' l ∧ (pageBase maxphyaddr physicalAddress, p) ∈ spec'.pages ∧
      s'.memory = s.memory ∧ s'.changeRegBPList = s.changeRegBPList ∧
      s'.traceOnBP = s.traceOnBP ∧ s'.reasons = s.reasons := by
  obtain ⟨s', hs'⟩ := h.links.activate_returns hroom
  rcases h.links.activate hs' with ⟨rfl, l, p, href, hp⟩ | ⟨hfree, r, l, href, heq, hlinks⟩
  · exact ⟨s', spec, l, p, hs', h, href, hp, rfl, rfl, rfl, rfl⟩
  · subst heq
    refine ⟨_, _, l, spec.nextData, hs', ⟨hlinks, ?_, ?_, h.clean⟩, href, List.mem_cons_self,
      rfl, rfl, rfl, rfl⟩
    · exact fun t ht hwaits => List.mem_cons_of_mem _ (h.trace t ht hwaits)
    · -- the copy is made from a page that is not cloaked yet
      intro p d hd offset hoffset
      by_cases hp : p = spec.nextData
      · subst hp
        simp only [Function.update_self, Option.some.injEq] at hd
        rw [← hd]
        exact h.own_of_uncloaked (pageBase_mod ..) hoffset hfree
      · simp only [Function.update_of_ne hp] at hd
        exact h.copy p d hd offset hoffset

theorem Inv.changeregonbp (h : s.Inv maxphyaddr own spec) (info : ChangeRegInfo)
    (hremoves : s.RemovesBreakpoint maxphyaddr own physicalAddress)
    (hroom : s.RoomFor maxphyaddr physicalAddress) :
    ∃ s' spec', s.changeregonbp maxphyaddr physicalAddress info = some s' ∧
      s'.Inv maxphyaddr own spec' := by
  obtain ⟨s₁, hs₁, h₁, hunset, hregistry⟩ := h.removechangeregonbp hremoves
  have hroom₁ : s₁.RoomFor maxphyaddr (pageBase maxphyaddr physicalAddress) := by
    rw [RoomFor, hregistry, pageBase_pageBase]
    exact hroom
  obtain ⟨s₂, spec', l, p, hs₂, h₂, href, hp, -, hlist, htrace, -⟩ := h₁.activate hroom₁
  rw [pageBase_pageBase] at hp
  obtain ⟨d, hd, hbyte⟩ := h₂.links.cloakdata_eq hp
  have hlookup : s₂.registry.lookup (pageBase maxphyaddr physicalAddress) = some (some p) := by
    rw [href.lookup, href.distinct.data_eq_some.2 hp]
  generalize hx : byteAddress maxphyaddr physicalAddress = x at hbyte
  let e : ChangeRegBPEntry := ⟨physicalAddress, s₂.memory x, info, p, true⟩
  have hunset₂ : Unset s₂.changeRegBPList physicalAddress := by
    rw [hlist]
    exact hunset
  refine ⟨{ s₂ with
    memory := Function.update s₂.memory x int3
    changeRegBPList := putFree (!·.active) s₂.changeRegBPList e }, spec', ?_,
    ⟨h₂.links.putBreakpoint (e := e) hp hunset₂ rfl rfl rfl, h₂.trace, h₂.copy, ?_⟩⟩
  · simp only [CloakState.changeregonbp, hs₁, hs₂, hlookup, hd, hbyte, h₂.links.write int3 hp,
      Option.bind_eq_bind, Option.bind_some, hx]
    rfl
  · apply h₂.clean_update rfl
    · refine (h₂.clean x).add ?_
      intro b
      show SavedByOther _ _ none x b ∨ _ ↔ _ ∨ SavedByOther _ _ none x b ∨ _
      rw [savedByOther_putFree b rfl, or_assoc]
      simp [e, hx]
    · intro y hy b
      show SavedByOther _ _ none y b ∨ _ ↔ SavedByOther _ _ none y b ∨ _
      rw [savedByOther_putFree b rfl]
      simp [e, hx, Ne.symm hy]

/-! ## The trace -/

theorem saved_of_waiting {t : TraceOnBPEntry} (ht : s.traceOnBP = some t)
    (hwaits : t.triggered = false) (b : UInt8) :
    s.Saved maxphyaddr x b ↔ (byteAddress maxphyaddr t.physicalAddress = x ∧ b = t.originalbyte) ∨
      SavedByOther maxphyaddr s.changeRegBPList none x b := by
  rw [Saved, or_comm]
  apply or_congr_left
  constructor
  · rintro ⟨t', ht', -, hx, hb⟩
    have heq : t' = t := Option.some.inj (ht'.symm.trans ht)
    subst heq
    exact ⟨hx, hb.symm⟩
  · rintro ⟨hx, rfl⟩
    exact ⟨t, ht, hwaits, hx, rfl⟩

theorem Inv.endTrace {t : TraceOnBPEntry} (h : s.Inv maxphyaddr own spec)
    (ht : s.traceOnBP = some t) (hwaits : t.triggered = false)
    (hremoves : s.RemovesTrace maxphyaddr own) (trace : Option TraceOnBPEntry)
    (htrace : ∀ t', trace = some t' → t'.triggered = true) :
    ∃ s₁, s.writeExecutable t.cloakdata t.physicalAddress t.originalbyte = some s₁ ∧
      ({ s₁ with traceOnBP := trace } : CloakState κ).Inv maxphyaddr own spec ∧
      s₁.registry = s.registry := by
  have hnone : ∀ y b, ¬ SavedByTrace maxphyaddr trace y b := by
    rintro y b ⟨t', ht', hwaits', -, -⟩
    rw [htrace t' ht'] at hwaits'
    exact absurd hwaits' (by decide)
  refine ⟨_, h.links.write _ (h.trace t ht hwaits), ⟨h.links.congr rfl rfl rfl, ?_, h.copy, ?_⟩,
    rfl⟩
  · intro t' ht' hwaits'
    have htriggered := htrace t' ht'
    rw [htriggered] at hwaits'
    exact absurd hwaits' (by decide)
  · apply h.clean_update rfl
    · refine ((h.clean _).remove ?_ (hremoves t ht hwaits)).congr ?_
      · intro b
        rw [saved_of_waiting ht hwaits]
        simp
      · intro b
        show SavedByOther _ _ none _ b ∨ SavedByTrace _ trace _ b ↔ _
        simp [hnone]
    · intro y hy b
      rw [saved_of_waiting ht hwaits]
      show SavedByOther _ _ none y b ∨ SavedByTrace _ trace y b ↔ _
      simp [hnone, Ne.symm hy]

theorem Inv.dropTrace (h : s.Inv maxphyaddr own spec)
    (htriggered : ∀ t, s.traceOnBP = some t → t.triggered = true) :
    ({ s with traceOnBP := none } : CloakState κ).Inv maxphyaddr own spec := by
  have hnone : ∀ y b, ¬ SavedByTrace maxphyaddr s.traceOnBP y b := by
    rintro y b ⟨t, ht, hwaits, -, -⟩
    rw [htriggered t ht] at hwaits
    exact absurd hwaits (by decide)
  refine ⟨h.links.congr rfl rfl rfl, nofun, h.copy, ?_⟩
  intro y
  apply (h.clean y).congr
  intro b
  have hnone' : ¬ SavedByTrace maxphyaddr none y b := by
              rintro ⟨_, ht, _⟩
              cases ht
  show SavedByOther _ _ none y b ∨ SavedByTrace _ none y b ↔ SavedByOther _ _ none y b ∨ _
  simp [hnone, hnone']

theorem Inv.removeTrace (h : s.Inv maxphyaddr own spec) (forcequit : Bool)
    (hremoves : s.RemovesTrace maxphyaddr own) :
    ∃ running s', s.removeTrace forcequit = some (running, s') ∧ s'.Inv maxphyaddr own spec ∧
      s'.registry = s.registry ∧ (running = false → s'.traceOnBP = none) := by
  unfold CloakState.removeTrace
  cases ht : s.traceOnBP with
  | none => exact ⟨false, s, rfl, h, rfl, fun _ => ht⟩
  | some t =>
    by_cases htriggered : t.triggered = true
    · have hall : ∀ t', s.traceOnBP = some t' → t'.triggered = true := by
        intro t' ht'
        rw [← Option.some.inj (ht.symm.trans ht')]
        exact htriggered
      simp only [if_pos htriggered]
      split
      · exact ⟨true, s, rfl, h, rfl, nofun⟩
      · exact ⟨false, _, rfl, h.dropTrace hall, rfl, fun _ => rfl⟩
    · have hwaits : t.triggered = false := Bool.eq_false_iff.2 htriggered
      obtain ⟨s₁, hs₁, h₁, hregistry⟩ := h.endTrace ht hwaits hremoves none nofun
      simp only [if_neg htriggered, hs₁, Option.bind_eq_bind, Option.bind_some]
      exact ⟨false, _, rfl, h₁, hregistry, fun _ => rfl⟩

theorem removeTrace_of_running (h : s.Running) : s.removeTrace false = some (true, s) := by
  obtain ⟨t, ht, htriggered, hfinished⟩ := h
  simp [CloakState.removeTrace, ht, htriggered, hfinished]

section

variable (h : s.Inv maxphyaddr own spec)
include h

theorem Inv.traceonbp (allocated : Bool)
    (hkeeps : s.Running ∨ s.RemovesTrace maxphyaddr own ∧ s.RoomFor maxphyaddr physicalAddress) :
    ∃ s' spec', s.traceonbp maxphyaddr physicalAddress allocated = some s' ∧
      s'.Inv maxphyaddr own spec' := by
  rcases hkeeps with hrunning | ⟨hremoves, hroom⟩
  · refine ⟨s, spec, ?_, h⟩
    rw [CloakState.traceonbp, removeTrace_of_running hrunning]
    rfl
  obtain ⟨running, s₁, hs₁, h₁, hregistry, hnone⟩ := h.removeTrace false hremoves
  cases running with
  | true =>
    refine ⟨s₁, spec, ?_, h₁⟩
    rw [CloakState.traceonbp, hs₁]
    rfl
  | false =>
    have hroom₁ : s₁.RoomFor maxphyaddr (pageBase maxphyaddr physicalAddress) := by
      rw [RoomFor, hregistry, pageBase_pageBase]
      exact hroom
    obtain ⟨s₂, spec', l, p, hs₂, h₂, href, hp, -, -, htrace, -⟩ := h₁.activate hroom₁
    rw [hnone rfl] at htrace
    rw [pageBase_pageBase] at hp
    obtain ⟨d, hd, hbyte⟩ := h₂.links.cloakdata_eq hp
    have hlookup : s₂.registry.lookup (pageBase maxphyaddr physicalAddress) = some (some p) := by
      rw [href.lookup, href.distinct.data_eq_some.2 hp]
    generalize hx : byteAddress maxphyaddr physicalAddress = x at hbyte
    cases allocated with
    | false =>
      refine ⟨s₂, spec', ?_, h₂⟩
      simp only [CloakState.traceonbp, hs₁, hs₂, hlookup, Option.bind_eq_bind, Option.bind_some]
      rfl
    | true =>
      let t : TraceOnBPEntry := ⟨physicalAddress, s₂.memory x, p, false, false⟩
      have hsaved : ∀ y b, ({ s₂ with traceOnBP := some t } : CloakState κ).Saved maxphyaddr y b ↔
          (x = y ∧ b = s₂.memory x) ∨ s₂.Saved maxphyaddr y b := by
        intro y b
        have hnone' : ¬ SavedByTrace maxphyaddr none y b := by
          rintro ⟨_, ht, _⟩
          cases ht
        rw [saved_of_waiting (t := t) rfl rfl, Saved, htrace]
        simp [hnone', t, hx]
      refine ⟨{ s₂ with memory := Function.update s₂.memory x int3, traceOnBP := some t }, spec',
        ?_, ⟨h₂.links.congr rfl rfl rfl, ?_, h₂.copy, ?_⟩⟩
      · simp only [CloakState.traceonbp, hs₁, hs₂, hlookup, hd, hbyte, h₂.links.write int3 hp,
          Option.bind_eq_bind, Option.bind_some, hx]
        rfl
      · intro t' ht' _
        rw [← Option.some.inj ht']
        exact hp
      · apply h₂.clean_update rfl
        · refine (h₂.clean x).add ?_
          intro b
          exact (hsaved x b).trans (by simp)
        · intro y hy b
          exact (hsaved y b).trans (by simp [Ne.symm hy])

theorem Inv.rewrite {byte saved : UInt8}
    (hp : (pageBase maxphyaddr physicalAddress, p) ∈ spec.pages)
    (hsaved : s.Saved maxphyaddr (byteAddress maxphyaddr physicalAddress) saved)
    (hbyte : byte = saved ∨ byte = int3) :
    ∃ s', s.writeExecutable p physicalAddress byte = some s' ∧ s'.Inv maxphyaddr own spec ∧
      s'.changeRegBPList = s.changeRegBPList ∧ s'.traceOnBP = s.traceOnBP ∧
      s'.registry = s.registry ∧ s'.cloakdata = s.cloakdata := by
  refine ⟨_, h.links.write byte hp, ⟨h.links.congr rfl rfl rfl, h.trace, h.copy, ?_⟩, rfl, rfl,
    rfl, rfl⟩
  apply h.clean_update rfl
  · exact (h.clean _).rewrite hsaved hbyte
  · exact fun _ _ _ => Iff.rfl

/-- The steps that CPUs have to finish do not matter to the bytes. -/
theorem Inv.setReasons (reasons : κ → List Nat) :
    ({ s with reasons := reasons } : CloakState κ).Inv maxphyaddr own spec :=
  ⟨h.links.congr rfl rfl rfl, h.trace, h.copy, h.clean⟩

theorem Inv.stoptrace :
    ∃ s', s.stoptrace = some s' ∧ s'.Inv maxphyaddr own spec := by
  unfold CloakState.stoptrace
  cases ht : s.traceOnBP with
  | none => exact ⟨s, rfl, h⟩
  | some t =>
    by_cases htriggered : t.triggered = true
    · exact ⟨s, if_pos htriggered, h⟩
    · have hwaits : t.triggered = false := Bool.eq_false_iff.2 htriggered
      obtain ⟨s', hs', h', -⟩ := h.rewrite (h.trace t ht hwaits)
        (.inr ⟨t, ht, hwaits, rfl, rfl⟩) (.inl rfl)
      exact ⟨s', (if_neg htriggered).trans hs', h'⟩

theorem Inv.finishTrace :
    s.finishTrace.Inv maxphyaddr own spec := by
  have hsaved : ∀ y b, SavedByTrace maxphyaddr s.finishTrace.traceOnBP y b ↔
      SavedByTrace maxphyaddr s.traceOnBP y b := by
    intro y b
    rw [CloakState.finishTrace]
    cases s.traceOnBP with
    | none => exact Iff.rfl
    | some t =>
      constructor
      · rintro ⟨t', ht', hwaits, hx, hb⟩
        rw [← Option.some.inj ht'] at hwaits hx hb
        exact ⟨t, rfl, hwaits, hx, hb⟩
      · rintro ⟨t', ht', hwaits, hx, hb⟩
        rw [← Option.some.inj ht'] at hwaits hx hb
        exact ⟨_, rfl, hwaits, hx, hb⟩
  refine ⟨h.links.congr rfl rfl rfl, ?_, h.copy, ?_⟩
  · intro t ht hwaits
    rw [CloakState.finishTrace, Option.map_eq_some_iff] at ht
    obtain ⟨t', ht', rfl⟩ := ht
    exact h.trace t' ht' hwaits
  · intro y
    apply (h.clean y).congr
    intro b
    exact or_congr_right (hsaved y b)

end

/-! ## Decloaking -/

theorem Drops.savedByOther {written : Nat → Prop} {s' : CloakState κ}
    (h : Drops (·.cloakdata = p) written s s') (hlinks : s.Links maxphyaddr spec)
    (hp : (a, p) ∈ spec.pages) (hx : ¬ (a ≤ x ∧ x < a + 4096)) (b : UInt8) :
    SavedByOther maxphyaddr s'.changeRegBPList none x b ↔
      SavedByOther maxphyaddr s.changeRegBPList none x b := by
  constructor
  · rintro ⟨j, e, hj, hactive, -, hat, hb⟩
    exact ⟨j, e, h.active j e hj hactive, hactive, nofun, hat, hb⟩
  · rintro ⟨j, e, hj, hactive, -, hat, hb⟩
    refine ⟨j, e, h.kept j e hj hactive ?_, hactive, nofun, hat, hb⟩
    rintro rfl
    have hmem := hlinks.breakpoint e (List.mem_of_getElem? hj) hactive
    have hpage := hlinks.registry.distinct.data _ a _ hmem hp
    rw [byteAddress, hpage] at hat
    have hoff : e.physicalAddress % 4096 < 4096 := Nat.mod_lt _ (by decide)
    omega

theorem Inv.decloak (h : s.Inv maxphyaddr own spec) (hp : (a, p) ∈ spec.pages) {s₁ : CloakState κ}
    (hdrops : Drops (·.cloakdata = p) (fun x => a ≤ x ∧ x < a + 4096) s s₁)
    (hnone : ∀ e ∈ s₁.changeRegBPList, e.active = true → e.cloakdata ≠ p)
    (htrace : ∀ t, s.traceOnBP = some t → t.triggered = false →
      pageBase maxphyaddr t.physicalAddress ≠ a)
    {d : CloakedPageData} (hd : s.cloakdata p = some d) (hexecutable : d.executable = a)
    {r : CloakRegistry} {l : AddressList}
    (href : r.Refines { spec with pages := spec.pages.filter (·.1 ≠ a) } l) :
    ({ s₁ with
      memory := restorePage s₁.memory d, registry := r,
      cloakdata := Function.update s₁.cloakdata p none } : CloakState κ).Inv maxphyaddr own
      { spec with pages := spec.pages.filter (·.1 ≠ a) } := by
  have hlinks₁ := hdrops.links h.links
  have htrace₁ : ∀ t, s₁.traceOnBP = some t → t.triggered = false →
      pageBase maxphyaddr t.physicalAddress ≠ a := by
    rw [hdrops.traceOnBP]
    exact htrace
  refine ⟨hlinks₁.decloak hp hnone href rfl rfl, ?_, ?_, ?_⟩
  · intro t ht hwaits
    have hne := htrace₁ t ht hwaits
    rw [hdrops.traceOnBP] at ht
    exact List.mem_filter.2 ⟨h.trace t ht hwaits, decide_eq_true hne⟩
  · intro q d' hd'
    by_cases hq : q = p
    · subst hq
      simp only [Function.update_self] at hd'
      exact nomatch hd'
    · simp only [Function.update_of_ne hq, hdrops.cloakdata] at hd'
      exact h.copy q d' hd'
  · intro x
    show CleanAt (own x) (restorePage s₁.memory d x) _
    by_cases hx : a ≤ x ∧ x < a + 4096
    · -- a byte of the page is copied back, and none saved it
      have hbyte : restorePage s₁.memory d x = own x := by
        have hcopy := h.copy p d hd (x - a) (by omega)
        have hsum : a + (x - a) = x := by omega
        rw [hexecutable, hsum] at hcopy
        rw [restorePage, hexecutable, if_pos hx, hcopy]
      have hfree : ∀ b, ¬ s₁.Saved maxphyaddr x b := by
        have haligned := h.links.aligned a p hp
        rintro b (⟨j, e, hj, hactive, -, hat, -⟩ | ⟨t, ht, hwaits, hat, -⟩)
        · have hpage := pageBase_of_byteAddress haligned hx.1 hx.2 hat
          have hof := hlinks₁.breakpoint e (List.mem_of_getElem? hj) hactive
          rw [hpage] at hof
          exact hnone e (List.mem_of_getElem? hj) hactive
            (h.links.registry.distinct.address hof hp)
        · exact htrace₁ t ht hwaits (pageBase_of_byteAddress haligned hx.1 hx.2 hat)
      exact ⟨.inl hbyte, fun b hb => absurd hb (hfree b), .inr ⟨hfree, hbyte⟩⟩
    · have hbyte : restorePage s₁.memory d x = s.memory x := by
        rw [restorePage, hexecutable, if_neg hx, hdrops.memory x hx]
      rw [hbyte]
      apply (h.clean x).congr
      intro b
      show SavedByOther _ s₁.changeRegBPList none x b ∨ SavedByTrace _ s₁.traceOnBP x b ↔ _
      rw [hdrops.savedByOther h.links hp hx, hdrops.traceOnBP]
      exact Iff.rfl

theorem Inv.deactivate (h : s.Inv maxphyaddr own spec) (hlist : s.registry.list ≠ none)
    (htrace : ∀ t, s.traceOnBP = some t → t.triggered = false →
      pageBase maxphyaddr t.physicalAddress ≠ pageBase maxphyaddr physicalAddress) :
    ∃ s' spec', s.deactivate maxphyaddr physicalAddress = some s' ∧ s'.Inv maxphyaddr own spec' := by
  obtain ⟨l, href⟩ : ∃ l, s.registry.Refines spec l := by
    rcases h.links.registry with href | ⟨hinitial, -⟩
    · exact href
    · rw [hinitial] at hlist
      exact absurd rfl hlist
  obtain ⟨r, l', href', ⟨hdata, hs'⟩ | ⟨p, d, s₁, hp, hd, hexecutable, hdrops, hnone, hs'⟩⟩ :=
    h.links.deactivate href physicalAddress
  · rw [CloakSpec.filter_of_data_none hdata] at href'
    exact ⟨_, spec, hs', ⟨⟨.inl ⟨l', href'⟩, h.links.live, h.links.aligned, h.links.breakpoint,
      h.links.once⟩, h.trace, h.copy, h.clean⟩⟩
  · exact ⟨_, _, hs', h.decloak hp hdrops hnone htrace hd hexecutable href'⟩

/-- No breakpoint is active, no trace is configured and no step is pending. -/
def Quiet (s : CloakState κ) : Prop :=
  (∀ e ∈ s.changeRegBPList, e.active = false) ∧ s.traceOnBP = none ∧ ∀ c, s.reasons c = []

def HasOwnBytes (memory : Nat → UInt8) (s : CloakState κ) : Prop :=
  ∀ a p, s.registry.lookup a = some (some p) → ∀ offset, offset < 4096 →
    s.memory (a + offset) = memory (a + offset)

theorem Inv.hasOwnBytes (h : s.Inv maxphyaddr own spec) (hquiet : s.Quiet) : s.HasOwnBytes own := by
  intro a p _ offset _
  rcases (h.clean (a + offset)).own_saved with hsaved | ⟨-, hbyte⟩
  · rcases hsaved with ⟨i, e, hget, hactive, -⟩ | ⟨t, ht, -⟩
    · rw [hquiet.1 e (List.mem_of_getElem? hget)] at hactive
      exact absurd hactive Bool.false_ne_true
    · exact nomatch hquiet.2.1.symm.trans ht
  · exact hbyte

theorem inv_initial (maxphyaddr : Nat) (memory : Nat → UInt8) :
    (initial memory : CloakState κ).Inv maxphyaddr memory .initial := by
  have hnone : ∀ x b, ¬ (initial memory : CloakState κ).Saved maxphyaddr x b := by
    rintro x b (⟨i, e, hget, -⟩ | ⟨t, ht, -⟩)
    · exact nomatch hget
    · exact nomatch ht
  refine ⟨links_initial memory, nofun, nofun, ?_⟩
  · exact fun x => ⟨.inl rfl, fun b hb => absurd hb (hnone x b), .inr ⟨hnone x, rfl⟩⟩

/-! ## Runs -/

section Cpu

variable [DecidableEq κ]

theorem Inv.hitBreakpoint (h : s.Inv maxphyaddr own spec) (c : κ) (PA RIP : Nat) :
    ∃ s', s.hitBreakpoint c PA RIP = some s' ∧ s'.Inv maxphyaddr own spec := by
  unfold CloakState.hitBreakpoint
  split
  · exact ⟨s, rfl, h⟩
  next i hi =>
  obtain ⟨hlt, hmatch, -⟩ := List.findIdx?_eq_some_iff_getElem.1 hi
  rw [Bool.and_eq_true, decide_eq_true_eq] at hmatch
  obtain ⟨hactive, rfl⟩ := hmatch
  have hget := List.getElem?_eq_getElem hlt
  generalize s.changeRegBPList[i] = e at hactive hget
  simp only [hget]
  split
  · obtain ⟨s', hs', h', -⟩ := h.rewrite
      (h.links.breakpoint e (List.mem_of_getElem? hget) hactive)
      (.inl ⟨i, e, hget, hactive, (fun h => by cases h), rfl, rfl⟩) (.inl rfl)
    simp only [hs', Option.bind_eq_bind, Option.bind_some]
    exact ⟨_, rfl, h'.setReasons _⟩
  · exact ⟨s, rfl, h⟩

/-- `ept_handleSoftwareBreakpoint`. -/
theorem Inv.hit (h : s.Inv maxphyaddr own spec) (c : κ) (PA RIP : Nat)
    (hkeeps : (∃ t, s.traceOnBP = some t ∧ t.physicalAddress = PA) →
      s.RemovesTrace maxphyaddr own) :
    ∃ s', s.hit c PA RIP = some s' ∧ s'.Inv maxphyaddr own spec := by
  unfold CloakState.hit
  cases ht : s.traceOnBP with
  | none => exact h.hitBreakpoint c PA RIP
  | some t =>
    by_cases haddress : t.physicalAddress = PA
    · simp only [if_pos haddress]
      by_cases htriggered : t.triggered = true
      · exact ⟨s, if_pos htriggered, h⟩
      · have hwaits : t.triggered = false := Bool.eq_false_iff.2 htriggered
        obtain ⟨s₁, hs₁, h₁, -⟩ := h.endTrace ht hwaits (hkeeps ⟨t, ht, haddress⟩)
          (some { t with triggered := true })
          (fun t' ht' => by rw [← Option.some.inj ht'])
        simp only [if_neg htriggered, hs₁, Option.bind_eq_bind, Option.bind_some]
        exact ⟨_, rfl, h₁⟩
    · simp only [if_neg haddress]
      exact h.hitBreakpoint c PA RIP

theorem Inv.afterStep (h : s.Inv maxphyaddr own spec) (c : κ) :
    ∃ s', s.afterStep c = some s' ∧ s'.Inv maxphyaddr own spec := by
  unfold CloakState.afterStep
  split
  · exact ⟨s, rfl, h⟩
  next ID rest hreasons =>
  have h₁ := h.setReasons (Function.update s.reasons c rest)
  cases hget : s.changeRegBPList[ID]? with
  | none =>
    simp only [hget]
    exact ⟨_, rfl, h₁⟩
  | some e =>
    simp only [hget]
    by_cases hactive : e.active = true
    · rw [if_pos hactive]
      obtain ⟨s', hs', h', -⟩ := h₁.rewrite
        (h.links.breakpoint e (List.mem_of_getElem? hget) hactive)
        (.inl ⟨ID, e, hget, hactive, nofun, rfl, rfl⟩) (.inr rfl)
      exact ⟨s', hs', h'⟩
    · exact ⟨_, if_neg hactive, h₁⟩

/-- One call or event. -/
theorem inv_step (input : BreakpointInput κ) (h : s.Inv maxphyaddr own spec)
    (hkeeps : s.Keeps maxphyaddr own input) :
    ∃ s', s.step maxphyaddr input = some s' ∧ ∃ spec', s'.Inv maxphyaddr own spec' := by
  cases input with
  | activate physicalAddress =>
    obtain ⟨s', spec', l, p, hs', h', -⟩ := h.activate hkeeps
    exact ⟨s', hs', spec', h'⟩
  | deactivate physicalAddress =>
    obtain ⟨s', spec', hs', h'⟩ := h.deactivate hkeeps.1 hkeeps.2
    exact ⟨s', hs', spec', h'⟩
  | changeregonbp physicalAddress changereginfo =>
    obtain ⟨s', spec', hs', h'⟩ := h.changeregonbp changereginfo hkeeps.1 hkeeps.2
    exact ⟨s', hs', spec', h'⟩
  | removechangeregonbp physicalAddress =>
    obtain ⟨s', hs', h', -⟩ := h.removechangeregonbp hkeeps
    exact ⟨s', hs', spec, h'⟩
  | traceonbp physicalAddress allocated =>
    obtain ⟨s', spec', hs', h'⟩ := h.traceonbp allocated hkeeps
    exact ⟨s', hs', spec', h'⟩
  | stoptrace =>
    obtain ⟨s', hs', h'⟩ := h.stoptrace
    exact ⟨s', hs', spec, h'⟩
  | removeTrace forcequit =>
    obtain ⟨running, s', hs', h', -⟩ := h.removeTrace forcequit hkeeps
    refine ⟨s', ?_, spec, h'⟩
    rw [CloakState.step, hs']
    rfl
  | finishTrace => exact ⟨_, rfl, spec, h.finishTrace⟩
  | hit c PA RIP =>
    obtain ⟨s', hs', h'⟩ := h.hit c PA RIP hkeeps
    exact ⟨s', hs', spec, h'⟩
  | afterStep c =>
    obtain ⟨s', hs', h'⟩ := h.afterStep c
    exact ⟨s', hs', spec, h'⟩

/-- The run returns, so that every write went through a pointer to a cloaked
    page, and if it ends quiet, every cloaked page has the bytes from before. -/
def LeavesNoTrace (maxphyaddr : Nat) (memory : Nat → UInt8) (inputs : List (BreakpointInput κ)) :
    Prop :=
  ∃ s, execM (step maxphyaddr) (initial memory) inputs = some s ∧ (s.Quiet → s.HasOwnBytes memory)

/-- In every run in which breakpoints and the trace leave a byte only when they
    are alone there or another one saved the page's own byte, in which no page is
    decloaked that an untriggered trace is set on, and in which the cloaked pages
    fit into the list, every write goes through a pointer to a cloaked page, and
    a quiet state has the bytes from before on every cloaked page. -/
theorem breakpoints_leave_no_trace (maxphyaddr : Nat) (memory : Nat → UInt8)
    (inputs : List (BreakpointInput κ))
    (hkeeps : AlongM (step maxphyaddr) (Keeps maxphyaddr memory) (initial memory) inputs) :
    LeavesNoTrace maxphyaddr memory inputs := by
  obtain ⟨s, hs, spec, h⟩ := execM_invariant (I := fun s => ∃ spec, s.Inv maxphyaddr memory spec)
    (fun s input ⟨spec, h⟩ hk => inv_step input h hk) ⟨.initial, inv_initial maxphyaddr memory⟩
    hkeeps
  exact ⟨s, hs, h.hasOwnBytes⟩

end Cpu

def nops : Nat → UInt8 := fun _ => 0x90

def changeReg : ChangeRegInfo := ⟨false, 0⟩

/-- A breakpoint is set, hit, put back after the step and removed. -/
def setHitRemove : List (BreakpointInput Unit) :=
  [.changeregonbp 4096 changeReg, .hit () 4096 0, .afterStep (), .removechangeregonbp 4096]

theorem setHitRemove_restores : LeavesNoTrace 36 nops setHitRemove := by
  apply breakpoints_leave_no_trace 36 nops setHitRemove
  refine ⟨⟨nofun, .inr (by decide)⟩, ?_⟩
  intro s₁ hs₁
  have htrace : s₁.traceOnBP = none := by
    rw [← Option.some.inj hs₁]
    rfl
  refine ⟨?_, ?_⟩
  · rintro ⟨t, ht, -⟩
    exact nomatch htrace.symm.trans ht
  intro s₂ hs₂
  refine ⟨trivial, ?_⟩
  intro s₃ hs₃
  refine ⟨?_, fun _ _ => trivial⟩
  have hrun : execM (step 36) (initial nops) (setHitRemove.take 3) = some s₃ := by
    rw [setHitRemove, List.take, execM_cons, hs₁, Option.bind_some, List.take, execM_cons, hs₂,
      Option.bind_some, List.take, execM_cons, hs₃]
    rfl
  have hlist : s₃.changeRegBPList = [⟨4096, 0x90, changeReg, 1, true⟩] := by
    have heval : (execM (step 36) (initial nops) (setHitRemove.take 3)).map changeRegBPList =
        some [⟨4096, 0x90, changeReg, 1, true⟩] := by decide
    rw [hrun] at heval
    exact Option.some.inj heval
  have htrace₃ : s₃.traceOnBP = none := by
    have heval : (execM (step 36) (initial nops) (setHitRemove.take 3)).map traceOnBP =
        some none := by decide
    rw [hrun] at heval
    exact Option.some.inj heval
  intro i e hget _ _
  right
  rintro b (⟨j, e', hget', -, hne, -⟩ | ⟨t, ht, -⟩)
  · rw [hlist] at hget hget'
    have hi := (List.getElem?_eq_some_iff.1 hget).1
    have hj := (List.getElem?_eq_some_iff.1 hget').1
    rw [List.length_singleton] at hi hj
    have hij : i = j := by omega
    exact hne (congrArg some hij)
  · exact nomatch htrace₃.symm.trans ht

/-- A trace is set, a breakpoint at the same byte, and both are removed in that
    order. -/
def traceThenBreakpoint : List (BreakpointInput Unit) :=
  [.traceonbp 4096 true, .changeregonbp 4096 changeReg, .removeTrace false,
    .removechangeregonbp 4096]

theorem traceThenBreakpoint_returns :
    (execM (step 36) (initial nops) traceThenBreakpoint).isSome = true := by decide

/-- A page is decloaked under a trace that waits on it, which is then removed. -/
def decloakUnderTrace : List (BreakpointInput Unit) :=
  [.traceonbp 4096 true, .deactivate 4096, .removeTrace false]

/-- The breakpoint saved the int3 of the trace and leaves it in a quiet state;
    the trace writes through a pointer to freed data. -/
theorem breakpoint_over_trace_stays :
    ¬ LeavesNoTrace 36 nops traceThenBreakpoint ∧ ¬ LeavesNoTrace 36 nops decloakUnderTrace := by
  constructor
  · rintro ⟨s, hs, hown⟩
    have heq : s = Option.get _ traceThenBreakpoint_returns := by
      rw [Option.eq_some_iff_get_eq] at hs
      exact hs.2.symm
    subst heq
    have hquiet : (Option.get _ traceThenBreakpoint_returns).Quiet :=
      ⟨by decide, by decide, fun ⟨⟩ => by decide⟩
    have hbyte := hown hquiet 4096 1 (by decide) 0 (by decide)
    exact absurd hbyte (by decide)
  · rintro ⟨s, hs, -⟩
    have hnone : (execM (step 36) (initial nops) decloakUnderTrace).isNone = true := by
      decide
    rw [hs] at hnone
    exact Bool.false_ne_true hnone

end CloakState

end CheatEngine.Dbvm
