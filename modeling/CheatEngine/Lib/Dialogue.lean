/-
  CheatEngine.Lib.Dialogue

  Two parties on a connection of two byte streams.  Each party goes through
  exchanges, one after another; in an exchange it sends bytes and takes bytes from
  what has arrived.  A byte carries the number of the exchange it was written in, so
  that a byte that is read in another exchange can be told.

  If in every exchange the two parties follow one script, then in every order of their
  steps no byte is read in another exchange than its own, and nothing is left when both
  have finished one.
-/
import Mathlib.Data.List.Basic
import CheatEngine.Lib.Run
import CheatEngine.Lib.Stream

namespace CheatEngine.Lib

variable {α β : Type}

/-- What a party does in the rest of an exchange. -/
inductive Talk (α : Type)
  /-- The exchange is over, with this state. -/
  | ret (x : α)
  | close
  | send (bytes : List UInt8) (next : Talk α)
  /-- What goes on with the bytes that have arrived, and the rest of these; `none`
      as long as they are not enough. -/
  | receive (r : List UInt8 → Option (Talk α × List UInt8))

def Talk.read (r : Reader β) (next : β → Talk α) : Talk α :=
  .receive fun bs => (r bs).map fun p => (next p.1, p.2)

/-- Bytes on their way, each with the number of its exchange. -/
abbrev Lane : Type := List (Nat × UInt8)

def tagged (n : Nat) (bytes : List UInt8) : Lane := bytes.map (n, ·)

structure Party (α : Type) where
  exchange : Nat
  talk : Talk α

/-- What a step of a party does. -/
structure Move (α : Type) where
  party : Party α
  /-- What is left of the bytes that had arrived. -/
  inp : Lane
  /-- What was sent. -/
  out : Lane
  /-- How many bytes of other exchanges were read. -/
  strays : Nat

/-- One step of a party; after an exchange it goes on with the next one. -/
def Party.advance (program : Nat → α → Talk α) (p : Party α) (inp : Lane) : Move α :=
  match p.talk with
  | .ret x => ⟨⟨p.exchange + 1, program (p.exchange + 1) x⟩, inp, [], 0⟩
  | .close => ⟨p, inp, [], 0⟩
  | .send bytes next => ⟨⟨p.exchange, next⟩, inp, tagged p.exchange bytes, 0⟩
  | .receive r =>
    match r (inp.map Prod.snd) with
    | none => ⟨p, inp, [], 0⟩
    | some (next, rest) =>
      let taken := inp.length - rest.length
      ⟨⟨p.exchange, next⟩, inp.drop taken, [],
        (inp.take taken).countP fun b => b.1 ≠ p.exchange⟩

/-! ## Scripts -/

/-- What is said in an exchange, byte by byte, and by whom. -/
abbrev Script : Type := List (Bool × UInt8)

def said (who : Bool) (bytes : List UInt8) : Script := bytes.map (who, ·)

/-- The party `me` follows the script, to its end or until it closes the
    connection. -/
inductive Follows (me : Bool) : Talk α → Script → Option α → Prop
  | ret (x : α) : Follows me (.ret x) [] (some x)
  | close (D : Script) : Follows me .close D none
  | send {next : Talk α} {D : Script} {x : Option α} (bytes : List UInt8)
      (h : Follows me next D x) : Follows me (.send bytes next) (said me bytes ++ D) x
  | receive {r : List UInt8 → Option (Talk α × List UInt8)} {next : Talk α} {D : Script}
      {x : Option α} {bytes : List UInt8}
      (hwhole : ∀ rest, r (bytes ++ rest) = some (next, rest))
      (hpart : ∀ n < bytes.length, r (bytes.take n) = none) (h : Follows me next D x) :
      Follows me (.receive r) (said (!me) bytes ++ D) x

theorem Follows.read {me : Bool} {r : Reader β} {bytes : List UInt8} {v : β}
    {next : β → Talk α} {D : Script} {x : Option α} (hr : Reader.Reads r bytes v)
    (h : Follows me (next v) D x) : Follows me (.read r next) (said (!me) bytes ++ D) x := by
  refine .receive (fun rest => ?_) (fun n hn => ?_) h
  · rw [hr.whole]
    rfl
  · rw [hr.part n hn]
    rfl

section Said

variable {me : Bool} {F F' bytes : List UInt8} {D D' : Script}

@[simp] theorem said_nil (me : Bool) : said me [] = [] := rfl

theorem said_append (me : Bool) (F F' : List UInt8) : said me (F ++ F') = said me F ++ said me F' :=
  List.map_append

theorem said_inj (h : said me F = said me F') : F = F' := by
  have hbytes := congrArg (List.map Prod.snd) h
  simpa [said] using hbytes

/-- Where two parties speak first, one of them says nothing. -/
theorem said_of_other (h : said me F ++ D = said (!me) bytes ++ D') : F = [] ∨ bytes = [] := by
  cases F with
  | nil => exact .inl rfl
  | cons b F =>
    cases bytes with
    | nil => exact .inr rfl
    | cons b' bytes =>
      have hwho : me = !me := congrArg Prod.fst (List.cons.inj h).1
      cases me <;> exact nomatch hwho

/-- Where one party says both, one part is the start of the other. -/
theorem said_of_same (h : said me F ++ D = said me bytes ++ D') :
    (∃ F', F = bytes ++ F' ∧ D' = said me F' ++ D) ∨
      (∃ more, bytes = F ++ more ∧ more ≠ [] ∧ D = said me more ++ D') := by
  induction F generalizing bytes with
  | nil =>
    cases bytes with
    | nil => exact .inl ⟨[], rfl, h.symm⟩
    | cons b bytes => exact .inr ⟨b :: bytes, rfl, nofun, h⟩
  | cons b F ih =>
    cases bytes with
    | nil => exact .inl ⟨b :: F, rfl, h.symm⟩
    | cons b' bytes =>
      obtain ⟨hb, htail⟩ := List.cons.inj h
      have hbyte : b = b' := congrArg Prod.snd hb
      subst hbyte
      rcases ih htail with ⟨F', hF, hD⟩ | ⟨more, hbytes, hmore, hD⟩
      · exact .inl ⟨F', by rw [hF, List.cons_append], hD⟩
      · exact .inr ⟨more, by rw [hbytes, List.cons_append], hmore, hD⟩

@[simp] theorem tagged_bytes (n : Nat) (bytes : List UInt8) :
    (tagged n bytes).map Prod.snd = bytes := by
  simp [tagged]

theorem tagged_append (n : Nat) (F F' : List UInt8) :
    tagged n (F ++ F') = tagged n F ++ tagged n F' :=
  List.map_append

@[simp] theorem tagged_length (n : Nat) (bytes : List UInt8) :
    (tagged n bytes).length = bytes.length :=
  List.length_map _

theorem countP_tagged (n : Nat) (bytes : List UInt8) :
    (tagged n bytes).countP (fun b => b.1 ≠ n) = 0 := by
  rw [List.countP_eq_zero]
  intro b hb
  obtain ⟨byte, -, rfl⟩ := List.mem_map.1 hb
  simp

end Said

theorem advance_receive {program : Nat → α → Talk α} {p : Party α}
    {r : List UInt8 → Option (Talk α × List UInt8)} (htalk : p.talk = .receive r)
    {next : Talk α} {bytes : List UInt8} {lane : Lane}
    (h : r (bytes ++ lane.map Prod.snd) = some (next, lane.map Prod.snd)) :
    p.advance program (tagged p.exchange bytes ++ lane) = ⟨⟨p.exchange, next⟩, lane, [], 0⟩ := by
  have htaken : (tagged p.exchange bytes ++ lane).length - (lane.map Prod.snd).length =
      (tagged p.exchange bytes).length := by
    simp
  rw [Party.advance, htalk]
  simp only [List.map_append, tagged_bytes, h, htaken, List.drop_left, List.take_left,
    countP_tagged]

/-- `a` is ahead of `b`: the bytes on the way to `b` are those that `b` still has to
    read before it is where `a` is, or before it closes the connection. -/
inductive Lag (me : Bool) (program : Nat → β → Talk β) (Rel : Nat → α → β → Prop)
    (a : Party α) : Party β → Lane → Prop
  | here {b : Party β} {lane : Lane} {F : List UInt8} {D : Script} {x : Option α} {y : Option β}
      (hn : b.exchange = a.exchange) (hlane : lane = tagged b.exchange F)
      (ha : Follows me a.talk D x) (hb : Follows (!me) b.talk (said me F ++ D) y)
      (hnext : ∀ s t, x = some s → y = some t → Rel (a.exchange + 1) s t) : Lag me program Rel a b lane
  | closing {b : Party β} {lane : Lane} {F : List UInt8} {more : Lane}
      (hlane : lane = tagged b.exchange F ++ more)
      (hb : Follows (!me) b.talk (said me F) none) : Lag me program Rel a b lane
  | behind {b : Party β} {lane lane' : Lane} {F : List UInt8} {t : β}
      (hlt : b.exchange < a.exchange) (hlane : lane = tagged b.exchange F ++ lane')
      (hb : Follows (!me) b.talk (said me F) (some t))
      (hrest : Lag me program Rel a ⟨b.exchange + 1, program (b.exchange + 1) t⟩ lane') :
      Lag me program Rel a b lane

/-- In every exchange from related states the parties follow one script, and the
    states after it are related. -/
def Ready (me : Bool) (program : Nat → α → Talk α) (program' : Nat → β → Talk β)
    (Rel : Nat → α → β → Prop) : Prop :=
  ∀ n s t, Rel n s t → ∃ D x y, Follows me (program n s) D x ∧ Follows (!me) (program' n t) D y ∧
    ∀ s' t', x = some s' → y = some t' → Rel (n + 1) s' t'

section Lag

variable {me : Bool} {program : Nat → α → Talk α} {program' : Nat → β → Talk β}
  {Rel : Nat → α → β → Prop} {a : Party α} {b : Party β} {lane : Lane} {x : Option α} {y : Option β}

/-- With nothing on the way, each party is as far as the other. -/
theorem Lag.swap {F : List UInt8} {D : Script}
    (hn : b.exchange = a.exchange) (ha : Follows me a.talk D x)
    (hb : Follows (!me) b.talk (said me F ++ D) y) (hF : F = [])
    (hnext : ∀ s t, x = some s → y = some t → Rel (a.exchange + 1) s t) :
    Lag (!me) program (fun n t s => Rel n s t) b a [] := by
  subst hF
  have ha' : Follows (!!me) a.talk (said (!me) [] ++ D) x := by
    rw [Bool.not_not]
    exact ha
  exact .here hn.symm rfl hb ha' fun t s hy hx => hn ▸ hnext s t hx hy

/-- Nothing has arrived, so nothing is taken. -/
theorem advance_nil (program : Nat → α → Talk α) (a : Party α) :
    (a.advance program []).inp = [] ∧ (a.advance program []).strays = 0 := by
  unfold Party.advance
  split
  · exact ⟨rfl, rfl⟩
  · exact ⟨rfl, rfl⟩
  · exact ⟨rfl, rfl⟩
  · split
    · exact ⟨rfl, rfl⟩
    · simp

theorem exchange_le_advance (program : Nat → α → Talk α) (a : Party α) (inp : Lane) :
    a.exchange ≤ (a.advance program inp).party.exchange := by
  unfold Party.advance
  split
  · exact Nat.le_succ _
  · exact Nat.le_refl _
  · exact Nat.le_refl _
  · split <;> exact Nat.le_refl _

variable {n : Nat}

theorem Lag.lead_here {talk : Talk α} {b : Party β} {F : List UInt8} {D : Script}
    (hready : Ready me program program' Rel) (hn : b.exchange = n) (ha : Follows me talk D x)
    (hb : Follows (!me) b.talk (said me F ++ D) y)
    (hnext : ∀ s t, x = some s → y = some t → Rel (n + 1) s t) :
    Lag me program' Rel (Party.advance program ⟨n, talk⟩ []).party b
      (tagged b.exchange F ++ (Party.advance program ⟨n, talk⟩ []).out) := by
  cases ha with
  | ret s =>
    -- the exchange is over for this party; the other one still has to read `F`
    rw [List.append_nil] at hb
    cases y with
    | none => exact .closing rfl hb
    | some t =>
      obtain ⟨D, x, y, hs, ht, hafter⟩ := hready (n + 1) s t (hnext s t rfl rfl)
      subst hn
      exact .behind (Nat.lt_succ_self _) rfl hb (.here (F := []) rfl rfl hs ht hafter)
  | close D =>
    rw [show (Party.advance program ⟨n, .close⟩ []).out = [] from rfl, List.append_nil]
    exact .here hn rfl (.close D) hb hnext
  | send bytes hnext' =>
    subst hn
    have hlane : tagged b.exchange F ++ tagged b.exchange bytes =
        tagged b.exchange (F ++ bytes) := (tagged_append _ _ _).symm
    rw [← List.append_assoc, ← said_append] at hb
    exact .here rfl hlane hnext' hb hnext
  | @receive r next D x bytes hwhole hpart hnext' =>
    cases bytes with
    | nil =>
      have hr : r [] = some (next, []) := hwhole []
      simp only [Party.advance, List.map_nil, hr, List.append_nil]
      exact .here hn rfl hnext' hb hnext
    | cons byte bytes =>
      have hr : r [] = none := hpart 0 (Nat.zero_lt_succ _)
      simp only [Party.advance, List.map_nil, hr, List.append_nil]
      exact .here hn rfl (.receive hwhole hpart hnext') hb hnext

theorem Lag.lead (hready : Ready me program program' Rel) (h : Lag me program' Rel a b lane) :
    Lag me program' Rel (a.advance program []).party b (lane ++ (a.advance program []).out) := by
  induction h with
  | here hn hlane ha hb hnext =>
    rw [hlane]
    exact lead_here hready hn ha hb hnext
  | @closing b lane F more hlane hb =>
    rw [hlane, List.append_assoc]
    exact .closing rfl hb
  | @behind b lane lane' F t hlt hlane hb _ ih =>
    rw [hlane, List.append_assoc]
    exact .behind (Nat.lt_of_lt_of_le hlt (exchange_le_advance program a [])) rfl hb ih

theorem follow_alone {talk : Talk β} {F : List UInt8} (more : Lane)
    (h : Follows (!me) talk (said me F) y) :
    (∃ t, talk = .ret t ∧ F = [] ∧ y = some t) ∨
      ∃ next F', Party.advance program' ⟨n, talk⟩ (tagged n F ++ more) =
        ⟨⟨n, next⟩, tagged n F' ++ more, [], 0⟩ ∧ Follows (!me) next (said me F') y := by
  generalize hD : said me F = D at h
  cases h with
  | ret t =>
    have hF : F = [] := said_inj (hD.trans (said_nil me).symm)
    exact .inl ⟨t, rfl, hF, rfl⟩
  | close D => exact .inr ⟨.close, F, rfl, .close _⟩
  | @send next D _ bytes hnext =>
    -- nothing is sent where the script has only bytes of the other party
    rw [← List.append_nil (said me F)] at hD
    have hbytes : bytes = [] := by
      rcases said_of_other hD with rfl | hbytes
      · exact List.map_eq_nil_iff.1 (List.append_eq_nil_iff.1 hD.symm).1
      · exact hbytes
    subst hbytes
    rw [List.append_nil] at hD
    have hD' : said me F = D := hD
    exact .inr ⟨next, F, rfl, hD' ▸ hnext⟩
  | @receive r next D _ bytes hwhole hpart hnext =>
    rw [← List.append_nil (said me F), Bool.not_not] at hD
    rcases said_of_same hD with ⟨F', hF, hD'⟩ | ⟨rest, -, hrest, hnil⟩
    · refine .inr ⟨next, F', ?_, ?_⟩
      · rw [hF, tagged_append, List.append_assoc]
        exact advance_receive rfl (hwhole _)
      · rw [List.append_nil] at hD'
        exact hD' ▸ hnext
    · have hsaid := (List.append_eq_nil_iff.1 hnil.symm).1
      exact absurd (List.map_eq_nil_iff.1 hsaid) hrest

theorem Lag.follow_here {talk : Talk β} {F : List UInt8} {D : Script}
    (hn : n = a.exchange) (ha : Follows me a.talk D x)
    (hb : Follows (!me) talk (said me F ++ D) y) (hF : F ≠ [])
    (hnext : ∀ s t, x = some s → y = some t → Rel (a.exchange + 1) s t) :
    ∃ b' lane', Party.advance program' ⟨n, talk⟩ (tagged n F) = ⟨b', lane', [], 0⟩ ∧
      Lag me program' Rel a b' lane' := by
  generalize hE : said me F ++ D = E at hb
  cases hb with
  | ret t =>
    have hsaid := (List.append_eq_nil_iff.1 hE).1
    exact absurd (List.map_eq_nil_iff.1 hsaid) hF
  | close E => exact ⟨_, _, rfl, .here hn rfl ha (.close _) hnext⟩
  | @send next E _ bytes hnext' =>
    have hbytes : bytes = [] := (said_of_other hE).resolve_left hF
    subst hbytes
    have hE' : said me F ++ D = E := hE
    exact ⟨_, _, rfl, .here hn rfl ha (hE' ▸ hnext') hnext⟩
  | @receive r next E _ bytes hwhole hpart hnext' =>
    rw [Bool.not_not] at hE
    rcases said_of_same hE with ⟨F', hF', hE'⟩ | ⟨rest, hbytes, hrest, -⟩
    · refine ⟨⟨n, next⟩, tagged n F', ?_, .here hn rfl ha (hE' ▸ hnext') hnext⟩
      rw [hF', tagged_append]
      exact advance_receive rfl (hwhole _)
    · -- not all of it has arrived
      have hlt : F.length < bytes.length := by
        have hpos := List.length_pos_iff.2 hrest
        rw [hbytes, List.length_append]
        omega
      have hr : r F = none := by
        have htake : bytes.take F.length = F := by rw [hbytes, List.take_left]
        rw [← htake]
        exact hpart _ hlt
      refine ⟨⟨n, .receive r⟩, tagged n F, ?_, .here hn rfl ha ?_ hnext⟩
      · simp only [Party.advance, tagged_bytes, hr]
      · have hb := Follows.receive hwhole hpart hnext'
        rw [Bool.not_not, ← hE] at hb
        exact hb

theorem Lag.follow (program : Nat → α → Talk α) (h : Lag me program' Rel a b lane) :
    (lane = [] ∧ Lag (!me) program (fun n t s => Rel n s t) b a []) ∨
      ∃ b' lane', b.advance program' lane = ⟨b', lane', [], 0⟩ ∧ Lag me program' Rel a b' lane' := by
  obtain ⟨n, talk⟩ := b
  cases h with
  | @here _ _ F D x y hn hlane ha hb hnext =>
    subst hlane
    by_cases hF : F = []
    · subst hF
      exact .inl ⟨rfl, swap hn ha hb rfl hnext⟩
    · exact .inr (follow_here hn ha hb hF hnext)
  | @closing _ _ F more hlane hb =>
    subst hlane
    right
    rcases follow_alone more hb with ⟨t, -, -, hy⟩ | ⟨next, F', hmove, hb'⟩
    · cases hy
    · exact ⟨_, _, hmove, .closing rfl hb'⟩
  | @behind _ _ lane' F t hlt hlane hb hrest =>
    subst hlane
    right
    rcases follow_alone lane' hb with ⟨t', htalk, hF, hy⟩ | ⟨next, F', hmove, hb'⟩
    · dsimp only at htalk
      subst htalk hF
      cases hy
      exact ⟨_, _, rfl, hrest⟩
    · exact ⟨_, _, hmove, .behind hlt rfl hb' hrest⟩

end Lag

/-- One of the two parties is ahead, and nothing is on the way to it. -/
def Joint (me : Bool) (program : Nat → α → Talk α) (program' : Nat → β → Talk β)
    (Rel : Nat → α → β → Prop) (a : Party α) (b : Party β) (toB toA : Lane) : Prop :=
  (toA = [] ∧ Lag me program' Rel a b toB) ∨
    (toB = [] ∧ Lag (!me) program (fun n t s => Rel n s t) b a toA)

section Joint

variable {me : Bool} {program : Nat → α → Talk α} {program' : Nat → β → Talk β}
  {Rel : Nat → α → β → Prop} {a : Party α} {b : Party β} {toB toA : Lane}

theorem Joint.symm (h : Joint me program program' Rel a b toB toA) :
    Joint (!me) program' program (fun n t s => Rel n s t) b a toA toB := by
  rcases h with ⟨hA, hlag⟩ | ⟨hB, hlag⟩
  · right
    rw [Bool.not_not]
    exact ⟨hA, hlag⟩
  · exact .inl ⟨hB, hlag⟩

theorem Ready.symm (h : Ready me program program' Rel) :
    Ready (!me) program' program (fun n t s => Rel n s t) := by
  intro n t s hrel
  obtain ⟨D, x, y, hs, ht, hafter⟩ := h n s t hrel
  rw [Bool.not_not]
  exact ⟨D, y, x, ht, hs, fun t' s' hy hx => hafter s' t' hx hy⟩

theorem Joint.step (hready : Ready me program program' Rel)
    (h : Joint me program program' Rel a b toB toA) :
    (a.advance program toA).strays = 0 ∧
      Joint me program program' Rel (a.advance program toA).party b
        (toB ++ (a.advance program toA).out) (a.advance program toA).inp := by
  have hlead : ∀ {lane}, Lag me program' Rel a b lane →
      (a.advance program []).strays = 0 ∧ Joint me program program' Rel
        (a.advance program []).party b (lane ++ (a.advance program []).out)
        (a.advance program []).inp := by
    intro lane hlag
    obtain ⟨hinp, hstrays⟩ := advance_nil program a
    exact ⟨hstrays, .inl ⟨hinp, hlag.lead hready⟩⟩
  rcases h with ⟨rfl, hlag⟩ | ⟨rfl, hlag⟩
  · exact hlead hlag
  · rcases hlag.follow program' with ⟨rfl, hswap⟩ | ⟨a', lane', hmove, hlag'⟩
    · rw [Bool.not_not] at hswap
      exact hlead hswap
    · rw [hmove]
      exact ⟨rfl, .inr ⟨rfl, hlag'⟩⟩

theorem Lag.nil_of_ret {lane : Lane} {s : α} {t : β} (h : Lag me program' Rel a b lane)
    (hn : a.exchange = b.exchange) (ha : a.talk = .ret s) (hb : b.talk = .ret t) : lane = [] := by
  cases h with
  | @here _ _ F D x y _ hlane ha' hb' _ =>
    rw [ha] at ha'
    rw [hb] at hb'
    cases ha'
    generalize hE : said me F ++ [] = E at hb'
    cases hb'
    rw [List.append_nil] at hE
    rw [hlane, List.map_eq_nil_iff.1 hE]
    rfl
  | @closing _ _ F _ _ hb' =>
    rw [hb] at hb'
    generalize said me F = E at hb'
    cases hb'
  | behind hlt _ _ _ => omega

theorem Joint.nil_of_ret {s : α} {t : β} (h : Joint me program program' Rel a b toB toA)
    (hn : a.exchange = b.exchange) (ha : a.talk = .ret s) (hb : b.talk = .ret t) :
    toB = [] ∧ toA = [] := by
  rcases h with ⟨hA, hlag⟩ | ⟨hB, hlag⟩
  · exact ⟨hlag.nil_of_ret hn ha hb, hA⟩
  · exact ⟨hB, hlag.nil_of_ret hn.symm hb ha⟩

end Joint

/-- A connection: what goes up is sent by the first party. -/
structure Connection (α β : Type) where
  first : Party α
  second : Party β
  up : Lane
  down : Lane
  /-- How many bytes were read in another exchange than they were written in. -/
  strays : Nat

namespace Connection

def start (program : Nat → α → Talk α) (program' : Nat → β → Talk β) (s : α) (t : β) :
    Connection α β :=
  ⟨⟨0, program 0 s⟩, ⟨0, program' 0 t⟩, [], [], 0⟩

/-- One step of the first party (`true`) or of the second one. -/
def step (program : Nat → α → Talk α) (program' : Nat → β → Talk β) (c : Connection α β) :
    Bool → Connection α β
  | true =>
    let m := c.first.advance program c.down
    ⟨m.party, c.second, c.up ++ m.out, m.inp, c.strays + m.strays⟩
  | false =>
    let m := c.second.advance program' c.up
    ⟨c.first, m.party, m.inp, c.down ++ m.out, c.strays + m.strays⟩

/-- The parties are in step: every byte was read in the exchange it was written in,
    and where both have finished an exchange nothing is left of it. -/
structure InStep (c : Connection α β) : Prop where
  strays : c.strays = 0
  nothingLeft : ∀ s t, c.first.exchange = c.second.exchange → c.first.talk = .ret s →
    c.second.talk = .ret t → c.up = [] ∧ c.down = []

theorem inStep_exec {program : Nat → α → Talk α} {program' : Nat → β → Talk β}
    (Rel : Nat → α → β → Prop) (hready : Ready true program program' Rel) {s : α} {t : β}
    (hstart : Rel 0 s t) (schedule : List Bool) :
    (exec (step program program') (start program program' s t) schedule).InStep := by
  have hinv : ∀ c : Connection α β, c.strays = 0 ∧
      Joint true program program' Rel c.first c.second c.up c.down →
      (exec (step program program') c schedule).strays = 0 ∧
        Joint true program program' Rel (exec (step program program') c schedule).first
          (exec (step program program') c schedule).second
          (exec (step program program') c schedule).up
          (exec (step program program') c schedule).down := by
    induction schedule with
    | nil => exact fun _ h => h
    | cons side schedule ih =>
      rintro c ⟨hstrays, hjoint⟩
      apply ih
      cases side with
      | true =>
        obtain ⟨hzero, hjoint'⟩ := hjoint.step hready
        exact ⟨by simp only [step, hstrays, hzero], hjoint'⟩
      | false =>
        obtain ⟨hzero, hjoint'⟩ := hjoint.symm.step hready.symm
        exact ⟨by simp only [step, hstrays, hzero], hjoint'.symm⟩
  obtain ⟨D, x, y, hs, ht, hafter⟩ := hready 0 s t hstart
  have hfirst : Joint true program program' Rel (start program program' s t).first
      (start program program' s t).second [] [] :=
    .inl ⟨rfl, .here (F := []) rfl rfl hs ht hafter⟩
  obtain ⟨hstrays, hjoint⟩ := hinv _ ⟨rfl, hfirst⟩
  exact ⟨hstrays, fun s t hn hs ht => hjoint.nil_of_ret hn hs ht⟩

end Connection

end CheatEngine.Lib
