/-
  CheatEngine.Client.SymbolQuery

  A symbol query from the file to the reported list (symbols.c, symbol.go, cli/symbol.go).

  The server's records carry the length of a name in one byte, which the client trusts to find
  the next record: with a longer name it reads the rest of the list wrong.  ELF64 takes the
  address of the first segment off every symbol, also for an executable, to which the command
  line adds no base; ELF32 takes nothing off.
-/
import CheatEngine.Ceserver.SymbolList

namespace CheatEngine.Client

open CheatEngine.Lib CheatEngine.Ceserver

/-! ## One request and its reply -/

/-- A server that answers the request with `reply`, and nothing more. -/
def answering (reply : List UInt8) : (o : NetOp) → List UInt8 → Option (NetSig.Res o × List UInt8)
  | .write _, inp => some (.ok (), inp ++ reply)
  | .read n, inp =>
    if n ≤ inp.length then some (.ok (inp.take n), inp.drop n)
    else some (.error "unexpected EOF", [])
  | .connected, inp => some (true, inp)
  | .close, inp => some (.ok (), inp)
  | .debugActive, inp => some (false, inp)
  | .setDebugActive _, inp => some ((), inp)
  | .ctxErr, inp => some (none, inp)

def Returns {α : Type} (reply : List UInt8) (m : ClientM α) (inp : List UInt8) (x : α) : Prop :=
  ∃ rest, Prog.interp (answering reply) m.run inp = some (.ok x, rest)

section Returns

variable {α β : Type} {reply inp : List UInt8} {f : α → ClientM β} {y : β} {operation : String}

theorem run_bind_interp (m : ClientM α) (f : α → ClientM β) (inp : List UInt8) :
    Prog.interp (answering reply) (m >>= f).run inp =
      (Prog.interp (answering reply) m.run inp).bind fun p =>
        match p.1 with
        | .ok a => Prog.interp (answering reply) (f a).run p.2
        | .error e => some (.error e, p.2) := by
  rw [ExceptT.run_bind, Prog.interp_bind]
  congr 1
  funext p
  cases p.1 <;> rfl

theorem returns_bind_of_run {m : ClientM α} {a : α} {rest : List UInt8}
    (h : Prog.interp (answering reply) m.run inp = some (.ok a, rest)) :
    Returns reply (m >>= f) inp y ↔ Returns reply (f a) rest y := by
  rw [Returns, run_bind_interp, h]
  rfl

theorem not_returns_bind {m : ClientM α} {e : ClientError} {rest : List UInt8}
    (h : Prog.interp (answering reply) m.run inp = some (.error e, rest)) :
    ¬ Returns reply (m >>= f) inp y := by
  rw [Returns, run_bind_interp, h]
  rintro ⟨_, hrun⟩
  cases hrun

theorem returns_pure (a b : α) : Returns reply (pure a) inp b ↔ a = b := by
  constructor
  · rintro ⟨_, h⟩
    exact Except.ok.inj (Prod.mk.inj (Option.some.inj h)).1
  · rintro rfl
    exact ⟨inp, rfl⟩

theorem not_returns_throw (e : ClientError) : ¬ Returns reply (throw e : ClientM β) inp y := by
  rintro ⟨_, h⟩
  cases h

theorem returns_write {f : Unit → ClientM β} (packet : List UInt8) :
    Returns reply (writePacket packet >>= f) inp y ↔ Returns reply (f ()) (inp ++ reply) y :=
  returns_bind_of_run rfl

theorem returns_readFull {f : List UInt8 → ClientM β} (n : Nat) :
    Returns reply (readFull operation n >>= f) inp y ↔
      n ≤ inp.length ∧ Returns reply (f (inp.take n)) (inp.drop n) y := by
  by_cases hzero : n = 0
  · subst hzero
    have hrun : Prog.interp (answering reply) (readFull operation 0).run inp =
        some (.ok [], inp) := rfl
    rw [returns_bind_of_run hrun]
    simp
  · by_cases hlen : n ≤ inp.length
    · have hrun : Prog.interp (answering reply) (readFull operation n).run inp =
          some (.ok (inp.take n), inp.drop n) := by
        rw [readFull, if_neg hzero, run_bind_interp]
        have hask : Prog.interp (answering reply) (ask (.read n)).run inp =
            some (.ok (.ok (inp.take n)), inp.drop n) := by
          show (answering reply (.read n) inp).bind _ = _
          simp only [answering, if_pos hlen]
          rfl
        rw [hask]
        rfl
      rw [returns_bind_of_run hrun]
      simp [hlen]
    · have hrun : Prog.interp (answering reply) (readFull operation n).run inp =
          some (.error (.protocol operation (text "unexpected EOF")), []) := by
        rw [readFull, if_neg hzero, run_bind_interp]
        have hask : Prog.interp (answering reply) (ask (.read n)).run inp =
            some (.ok (.error "unexpected EOF"), []) := by
          show (answering reply (.read n) inp).bind _ = _
          simp only [answering, if_neg hlen]
          rfl
        rw [hask]
        rfl
      constructor
      · exact fun h => absurd h (not_returns_bind hrun)
      · exact fun h => absurd h.1 hlen

theorem u32At_take (bs : List UInt8) {n : Nat} (hn : 4 ≤ n) : u32At (bs.take n) 0 = u32At bs 0 := by
  rw [u32At, u32At, List.drop_zero, List.drop_zero, List.take_take, Nat.min_eq_left hn]

theorem returns_readU32 {f : UInt32 → ClientM β} :
    Returns reply (readU32 operation >>= f) inp y ↔
      4 ≤ inp.length ∧ Returns reply (f (u32At inp 0)) (inp.drop 4) y := by
  have hassoc : (readU32 operation >>= f) =
      readFull operation 4 >>= fun bytes => f (u32At bytes 0) := by
    rw [readU32, bind_assoc]
    rfl
  rw [hassoc, returns_readFull, u32At_take inp (Nat.le_refl 4)]

theorem returns_result {e : Except ClientError α} :
    Returns reply ((ExceptT.mk (return e) : ClientM α) >>= f) inp y ↔
      ∃ a, e = .ok a ∧ Returns reply (f a) inp y := by
  have hrun : Prog.interp (answering reply) (ExceptT.mk (return e) : ClientM α).run inp =
      some (e, inp) := rfl
  cases e with
  | ok a => simp [returns_bind_of_run hrun]
  | error err => simpa using not_returns_bind hrun

theorem returns_unless {c : Prop} [Decidable c] {e : ClientError} {m : ClientM β} :
    Returns reply (if c then throw e else m) inp y ↔ ¬ c ∧ Returns reply m inp y := by
  by_cases hc : c
  · rw [if_pos hc]
    exact ⟨fun h => absurd h (not_returns_throw e), fun h => absurd hc h.1⟩
  · rw [if_neg hc]
    exact ⟨fun h => ⟨hc, h⟩, fun h => h.2⟩

end Returns

theorem u32At_drop (bs : List UInt8) (k : Nat) : u32At (bs.drop k) 0 = u32At bs k := by
  rw [u32At, u32At, List.drop_zero]

theorem symbols_ok_iff {inflate : Inflate} {path reply : List UInt8} {fileOffset : UInt32}
    (hpath : path.length ≠ 0 ∧ path.length ≤ maximumProtocolStringLength) {sl : SymbolList} :
    Returns reply (symbols inflate path fileOffset) [] sl ↔
      12 ≤ reply.length ∧ 12 ≤ (u32At reply 4).toNat ∧ (u32At reply 4).toNat ≤ reply.length ∧
        (u32At reply 4).toNat ≤ maximumRemoteFileSize ∧
        (u32At reply 8).toNat ≤ maximumRemoteFileSize ∧
        ∃ data, inflate ((reply.drop 12).take ((u32At reply 4).toNat - 12))
            ((u32At reply 8).toNat + 1) = .ok data ∧
          data.length = (u32At reply 8).toNat ∧
          parseSymbols data = .ok sl.symbols ∧ sl.path = path ∧ sl.fileOffset = fileOffset ∧
          sl.executable = (u32At reply 0 != 0) := by
  have hvalid : ¬ (path.length = 0 ∨ maximumProtocolStringLength < path.length) := by omega
  rw [symbols, if_neg hvalid, returns_write, List.nil_append, returns_readU32, returns_readU32]
  simp only [u32At_drop, List.drop_drop, Nat.reduceAdd]
  rw [returns_unless, returns_unless, returns_readU32]
  simp only [u32At_drop, List.drop_drop, Nat.reduceAdd]
  rw [returns_unless, returns_readFull]
  have hzero : u32At reply 4 = 0 → (u32At reply 4).toNat = 0 := by intro h; rw [h]; rfl
  simp only [List.length_drop]
  constructor
  · rintro ⟨h4, h8, -, hsize, h12, hdecompressed, hread, hrest⟩
    refine ⟨by omega, by omega, by omega, by omega, by omega, ?_⟩
    cases hinflate : inflate ((reply.drop 12).take ((u32At reply 4).toNat - 12))
        ((u32At reply 8).toNat + 1) with
    | error err =>
      rw [hinflate] at hrest
      exact absurd hrest (not_returns_throw _)
    | ok data =>
      rw [hinflate] at hrest
      dsimp only at hrest
      rw [returns_unless, returns_result] at hrest
      obtain ⟨hlen, parsed, hparsed, hpure⟩ := hrest
      rw [returns_pure] at hpure
      subst hpure
      exact ⟨data, rfl, not_not.1 hlen, hparsed, rfl, rfl, rfl⟩
  · rintro ⟨h12, htotal, hle, hmax, hdecompressed, data, hinflate, hlen, hparsed, hp, ho, he⟩
    refine ⟨by omega, by omega, ?_, by omega, by omega, by omega, by omega, ?_⟩
    · intro h
      have := hzero h
      omega
    · rw [hinflate]
      dsimp only
      rw [returns_unless, returns_result]
      refine ⟨not_not.2 hlen, sl.symbols, hparsed, ?_⟩
      rw [returns_pure, ← hp, ← ho, ← he]

/-! ## parseSymbols -/

/-- The symbol that a record with a short name is read as. -/
def readBack (si : SymbolInfo) : Symbol := ⟨si.address, si.size.toInt32, si.type.toInt32, si.name⟩

def named (entries : List SymbolInfo) : List SymbolInfo := entries.filter fun si => si.name ≠ []

section Parse

theorem parseSymbolsLoop_record (si : SymbolInfo) (hshort : si.name.length < 256)
    (data : List UInt8) (fuel position : Nat) (symbols : List Symbol) :
    parseSymbolsLoop (fuel + 1) position (si.encode ++ data) symbols =
      let symbols := if si.name ≠ [] then symbols ++ [readBack si] else symbols
      if maximumCollectionEntries < symbols.length then
        .error (.protocol "parse symbols" (text "symbol count exceeds client limit"))
      else parseSymbolsLoop fuel (position + 17 + si.name.length) data symbols := by
  have hdata : si.encode ++ data = u64 si.address ++ (u32 si.size ++ (u32 si.type ++
      (u8 (UInt8.ofNat si.name.length) ++ (si.name ++ data)))) := by
    simp [SymbolInfo.encode]
  have hlength : (UInt8.ofNat si.name.length).toNat = si.name.length := by
    rw [UInt8.toNat_ofNat']
    exact Nat.mod_eq_of_lt hshort
  have hlen : 17 ≤ (si.encode ++ data).length := by
    rw [List.length_append, SymbolInfo.length_encode]
    omega
  have hne : si.encode ++ data ≠ [] := by
    intro h
    rw [h] at hlen
    exact absurd hlen (by decide)
  have hbyte : (u8At (si.encode ++ data) 16).toNat = si.name.length := by
    rw [hdata]
    simp [hlength]
  have hrest : (si.encode ++ data).drop 17 = si.name ++ data := by
    rw [hdata]
    rfl
  have haddress : u64At (si.encode ++ data) 0 = si.address := by rw [hdata]; simp
  have hsize : i32At (si.encode ++ data) 8 = si.size.toInt32 := by rw [hdata]; simp
  have htype : i32At (si.encode ++ data) 12 = si.type.toInt32 := by rw [hdata]; simp
  rw [parseSymbolsLoop, if_neg hne, if_neg (by omega)]
  simp only [hbyte, hrest, haddress, hsize, htype]
  rw [if_neg (by simp), List.take_left, List.drop_left]
  rfl

theorem parseSymbolsLoop_entries (entries : List SymbolInfo)
    (hshort : ∀ si ∈ entries, si.name.length < 256) (result : List Symbol) :
    ∀ (fuel position : Nat) (symbols : List Symbol), entries.length ≤ fuel →
      symbols.length ≤ maximumCollectionEntries →
      (parseSymbolsLoop fuel position (entries.flatMap SymbolInfo.encode) symbols = .ok result ↔
        symbols.length + (named entries).length ≤ maximumCollectionEntries ∧
          result = symbols ++ (named entries).map readBack) := by
  induction entries with
  | nil =>
    intro fuel position symbols _ hroom
    have hend : parseSymbolsLoop fuel position [] symbols = .ok symbols := by
      cases fuel <;> simp [parseSymbolsLoop]
    rw [List.flatMap_nil, hend]
    constructor
    · intro h
      exact ⟨hroom, by simpa [named] using (Except.ok.inj h).symm⟩
    · rintro ⟨-, rfl⟩
      simp [named]
  | cons si rest ih =>
    intro fuel position symbols hfuel hroom
    have hrest := ih fun x hx => hshort x (List.mem_cons_of_mem si hx)
    obtain ⟨fuel, rfl⟩ : ∃ n, fuel = n + 1 := ⟨fuel - 1, by simp at hfuel; omega⟩
    rw [List.flatMap_cons, parseSymbolsLoop_record si (hshort si List.mem_cons_self)]
    have hfuel' : rest.length ≤ fuel := by simpa using hfuel
    by_cases hname : si.name = []
    · -- a record without a name is passed over
      have hnamed : named (si :: rest) = named rest := by simp [named, hname]
      simp only [hname, ne_eq, not_true_eq_false, if_false]
      rw [if_neg (by omega), hnamed]
      exact hrest fuel _ symbols hfuel' hroom
    · have hnamed : named (si :: rest) = si :: named rest := by simp [named, hname]
      simp only [ne_eq, hname, not_false_eq_true, if_true, List.length_append,
        hnamed, List.length_cons, List.length_nil, Nat.zero_add, List.map_cons]
      by_cases hfull : maximumCollectionEntries < symbols.length + 1
      · rw [if_pos hfull]
        constructor
        · intro h
          cases h
        · intro h
          omega
      · rw [if_neg hfull, hrest fuel _ _ hfuel' (by simp; omega)]
        simp only [List.length_append, List.length_singleton, List.append_assoc,
          List.singleton_append]
        constructor
        · rintro ⟨hle, hresult⟩
          exact ⟨by omega, hresult⟩
        · rintro ⟨hle, hresult⟩
          exact ⟨by omega, hresult⟩

theorem length_le_flatMap_encode (entries : List SymbolInfo) :
    entries.length ≤ (entries.flatMap SymbolInfo.encode).length := by
  induction entries with
  | nil => exact Nat.le_refl 0
  | cons si rest ih =>
    rw [List.flatMap_cons, List.length_append, SymbolInfo.length_encode, List.length_cons]
    omega

theorem parseSymbols_entries {entries : List SymbolInfo}
    (hshort : ∀ si ∈ entries, si.name.length < 256) {result : List Symbol} :
    parseSymbols (entries.flatMap SymbolInfo.encode) = .ok result ↔
      (named entries).length ≤ maximumCollectionEntries ∧
        result = (named entries).map readBack := by
  have h := parseSymbolsLoop_entries entries hshort result _ 0 []
    (length_le_flatMap_encode entries) (Nat.zero_le _)
  simpa [parseSymbols] using h

theorem parseSymbolsLoop_short (fuel : Nat) : ∀ (position : Nat) (data : List UInt8)
    (symbols result : List Symbol), parseSymbolsLoop fuel position data symbols = .ok result →
      (∀ s ∈ symbols, s.name.length < 256) → ∀ s ∈ result, s.name.length < 256 := by
  induction fuel with
  | zero =>
    intro position data symbols result h hsymbols
    rw [← Except.ok.inj h]
    exact hsymbols
  | succ fuel ih =>
    intro position data symbols result h hsymbols
    rw [parseSymbolsLoop] at h
    split at h
    · rw [← Except.ok.inj h]
      exact hsymbols
    · split at h
      · cases h
      · dsimp only at h
        split at h
        · cases h
        · -- the list with the symbol that was read, if it has a name
          generalize hnext : (if (data.drop 17).take (u8At data 16).toNat ≠ [] then
            symbols ++ [(⟨u64At data 0, i32At data 8, i32At data 12,
              (data.drop 17).take (u8At data 16).toNat⟩ : Symbol)] else symbols) = next at h
          have hshort : ∀ s ∈ next, s.name.length < 256 := by
            rw [← hnext]
            split
            · intro s hs
              rw [List.mem_append, List.mem_singleton] at hs
              rcases hs with hs | rfl
              · exact hsymbols s hs
              · have hbyte : (u8At data 16).toNat < 256 := (u8At data 16).toNat_lt
                rw [List.length_take]
                omega
            · exact hsymbols
          split at h
          · cases h
          · exact ih _ _ _ _ h hshort

theorem parseSymbols_short {data : List UInt8} {result : List Symbol}
    (h : parseSymbols data = .ok result) : ∀ s ∈ result, s.name.length < 256 :=
  parseSymbolsLoop_short _ _ _ _ _ h (by simp)

end Parse

section Reply

variable {e_type : UInt16} {written raw : List UInt8}

theorem symbolOutput_fields (n : Nat) :
    u32At (symbolOutput e_type n written) 0 = (if e_type = etExec then 1 else 0) ∧
    u32At (symbolOutput e_type n written) 4 = UInt32.ofNat (written.length + 12) ∧
    u32At (symbolOutput e_type n written) 8 = UInt32.ofNat n ∧
    (symbolOutput e_type n written).drop 12 = written ∧
    (symbolOutput e_type n written).length = written.length + 12 := by
  simp only [symbolOutput, List.append_assoc]
  refine ⟨by simp, by simp, by simp, rfl, ?_⟩
  simp
  omega

/-- A field is the same in the part that is sent. -/
theorem u32At_take_le (bs : List UInt8) {n k : Nat} (h : k + 4 ≤ n) :
    u32At (bs.take n) k = u32At bs k := by
  rw [u32At, u32At, List.drop_take, List.take_take, Nat.min_eq_left (by omega)]

theorem returns_symbolReply {z : Zlib} {entries : List SymbolInfo} {path : List UInt8}
    {fileOffset : UInt32} (hpath : path.length ≠ 0 ∧ path.length ≤ maximumProtocolStringLength)
    {sl : SymbolList} :
    Returns (symbolReply (some (symbolOutput e_type (entries.flatMap SymbolInfo.encode).length
        (stream z entries)))) (symbols z.inflate path fileOffset) [] sl ↔
      (stream z entries).length + 12 ≤ maximumRemoteFileSize ∧
        (entries.flatMap SymbolInfo.encode).length ≤ maximumRemoteFileSize ∧
        parseSymbols (entries.flatMap SymbolInfo.encode) = .ok sl.symbols ∧
        sl.path = path ∧ sl.fileOffset = fileOffset ∧
        sl.executable = decide (e_type = etExec) := by
  have hmax : maximumRemoteFileSize = 268435456 := rfl
  obtain ⟨hexec, htotal, hraw, hwritten, hlength⟩ :=
    @symbolOutput_fields e_type (stream z entries) (entries.flatMap SymbolInfo.encode).length
  have hinflate := fun limit => @inflate_stream z entries limit
  have htruncated := z.inflate_truncated (pieces [] entries).1 (pieces [] entries).2
  generalize houtput : symbolOutput e_type (entries.flatMap SymbolInfo.encode).length
    (stream z entries) = output at *
  generalize entries.flatMap SymbolInfo.encode = raw at *
  -- what is sent, and what its first fields say
  have htotalNat : (u32At output 4).toNat = ((stream z entries).length + 12) % 2 ^ 32 := by
    rw [htotal, UInt32.toNat_ofNat']
  have hrawNat : (UInt32.ofNat raw.length).toNat = raw.length % 2 ^ 32 := UInt32.toNat_ofNat'
  rw [symbols_ok_iff hpath, symbolReply, List.length_take, hlength]
  have hfields : 12 ≤ (u32At output 4).toNat →
      u32At (output.take (u32At output 4).toNat) 0 = u32At output 0 ∧
      u32At (output.take (u32At output 4).toNat) 4 = u32At output 4 ∧
      u32At (output.take (u32At output 4).toNat) 8 = u32At output 8 ∧
      ((output.take (u32At output 4).toNat).drop 12).take ((u32At output 4).toNat - 12) =
        (stream z entries).take ((u32At output 4).toNat - 12) := by
    intro h12
    refine ⟨u32At_take_le _ (by omega), u32At_take_le _ (by omega), u32At_take_le _ (by omega), ?_⟩
    rw [List.drop_take, hwritten, List.take_take, Nat.min_self]
  have hexecBool : (u32At output 0 != 0) = decide (e_type = etExec) := by
    rw [hexec]
    by_cases h : e_type = etExec <;> simp [h]
  constructor
  · rintro ⟨h12, -, -, hsmall, hsize, data, hread, hdata, hparsed, hp, ho, he⟩
    have h12' : 12 ≤ (u32At output 4).toNat := by omega
    obtain ⟨hf0, hf4, hf8, hstream⟩ := hfields h12'
    rw [hf4] at hsmall hread
    rw [hf8] at hsize hread hdata
    rw [hstream] at hread
    rw [hf0, hexecBool] at he
    rw [hraw, hrawNat] at hsize hread hdata
    by_cases hwhole : (stream z entries).length + 12 < 2 ^ 32
    · have hsame : ((stream z entries).length + 12) % 2 ^ 32 = (stream z entries).length + 12 :=
        Nat.mod_eq_of_lt hwhole
      rw [htotalNat, hsame, Nat.add_sub_cancel, List.take_length, hinflate] at hread
      have htake := Except.ok.inj hread
      have hlen : (raw.take (raw.length % 2 ^ 32 + 1)).length = raw.length % 2 ^ 32 := by
        rw [htake, hdata]
      rw [List.length_take] at hlen
      have hfits : raw.length = raw.length % 2 ^ 32 := by omega
      have hall : raw.take (raw.length % 2 ^ 32 + 1) = raw :=
        List.take_of_length_le (by omega)
      rw [hall] at htake
      subst htake
      exact ⟨by omega, by omega, hparsed, hp, ho, he⟩
    · -- the size has wrapped, and the stream is cut off
      have hcut : (u32At output 4).toNat - 12 < (stream z entries).length := by omega
      have hlimit := htruncated _ _ data hcut hread
      omega
  · rintro ⟨hsmall, hsize, hparsed, hp, ho, he⟩
    have hsame : ((stream z entries).length + 12) % 2 ^ 32 = (stream z entries).length + 12 :=
      Nat.mod_eq_of_lt (by omega)
    have hsame' : raw.length % 2 ^ 32 = raw.length := Nat.mod_eq_of_lt (by omega)
    rw [hsame] at htotalNat
    obtain ⟨hf0, hf4, hf8, hstream⟩ := hfields (by omega)
    rw [hf4, hf8, hf0, hexecBool, hstream, hraw, hrawNat, hsame', htotalNat]
    refine ⟨by omega, by omega, by omega, by omega, by omega, raw, ?_, rfl, hparsed, hp, ho, he⟩
    rw [Nat.add_sub_cancel, List.take_length, hinflate, List.take_of_length_le (by omega)]

end Reply

theorem received_iff {z : Zlib} {file path : List UInt8} {fileoffset : UInt32}
    (h : (elfImage file fileoffset).WellFormed)
    (hpath : path.length ≠ 0 ∧ path.length ≤ maximumProtocolStringLength) {sl : SymbolList} :
    (∃ output, getSymbolListFromFile z file fileoffset = some output ∧
      Returns (symbolReply output) (symbols z.inflate path fileoffset) [] sl) ↔
    (∀ si ∈ sentEntries file fileoffset, si.encode.length ≤ tempBufSize) ∧
      (stream z (sentEntries file fileoffset)).length + 12 ≤ maximumRemoteFileSize ∧
      ((sentEntries file fileoffset).flatMap SymbolInfo.encode).length ≤ maximumRemoteFileSize ∧
      parseSymbols ((sentEntries file fileoffset).flatMap SymbolInfo.encode) = .ok sl.symbols ∧
      sl.path = path ∧ sl.fileOffset = fileoffset ∧
      sl.executable = decide ((elfImage file fileoffset).header.e_type = etExec) := by
  rw [getSymbolListFromFile_eq h, compress_eq]
  split
  case isTrue hfit =>
    simp only [Option.map_some, Option.some.injEq, exists_eq_left', returns_symbolReply hpath]
    exact ⟨fun hrest => ⟨hfit, hrest⟩, fun hall => hall.2⟩
  case isFalse hfit =>
    constructor
    · rintro ⟨output, hnone, -⟩
      cases hnone
    · exact fun hall => absurd hall.1 hfit

/-! ## The symbols of the file -/

/-- What a query for a symbol says. -/
def Symbol.view (s : Symbol) : UInt64 × Int × Int × List UInt8 :=
  (s.address, s.size.toInt, s.type.toInt, s.name)

def fileView (p_vaddr : UInt64) (s : FileSymbol) : UInt64 × Int × Int × List UInt8 :=
  (s.st_value - p_vaddr, s.st_size.toNat, s.st_info.toNat, s.name)

def RoundTrips (z : Zlib) (file : List UInt8) (fileoffset : UInt32) (path : List UInt8) : Prop :=
  ∃ sl : SymbolList,
    (∃ output, getSymbolListFromFile z file fileoffset = some output ∧
      Returns (symbolReply output) (symbols z.inflate path fileoffset) [] sl) ∧
    sl.symbols.map Symbol.view =
      (elfImage file fileoffset).listed.map (fileView (elfImage file fileoffset).p_vaddr)

/-- The names come through: each fits into its length byte, and the client accepts the list. -/
structure Delivered (z : Zlib) (file : List UInt8) (fileoffset : UInt32) : Prop where
  short : ∀ s ∈ (elfImage file fileoffset).listed, s.name.length < 256
  count : (elfImage file fileoffset).listed.length ≤ maximumCollectionEntries
  raw : ((elfImage file fileoffset).entries.map fun s => 17 + s.name.length).sum ≤
    maximumRemoteFileSize
  compressed : (stream z (sentEntries file fileoffset)).length + 12 ≤ maximumRemoteFileSize

section Delivery

variable {z : Zlib} {file path : List UInt8} {fileoffset : UInt32}

theorem named_sentEntries : named (sentEntries file fileoffset) =
    (elfImage file fileoffset).listed.map (FileSymbol.info (subtracted file fileoffset)) := by
  rw [named, sentEntries, List.filter_map]
  rfl

theorem length_encode_sentEntries :
    ((sentEntries file fileoffset).flatMap SymbolInfo.encode).length =
      ((elfImage file fileoffset).entries.map fun s => 17 + s.name.length).sum := by
  rw [List.length_flatMap, sentEntries, List.map_map]
  congr 1
  apply List.map_congr_left
  intro s _
  exact SymbolInfo.length_encode _

theorem short_of_listed (h : ∀ s ∈ (elfImage file fileoffset).listed, s.name.length < 256) :
    ∀ si ∈ sentEntries file fileoffset, si.name.length < 256 := by
  intro si hsi
  obtain ⟨s, hs, rfl⟩ := List.mem_map.1 hsi
  by_cases hname : s.name = []
  · simp [FileSymbol.info, hname]
  · exact h s (List.mem_filter.2 ⟨hs, by simpa using hname⟩)

theorem delivered_of_names (hwf : (elfImage file fileoffset).WellFormed)
    (hpath : path.length ≠ 0 ∧ path.length ≤ maximumProtocolStringLength) {sl : SymbolList}
    (hreceived : ∃ output, getSymbolListFromFile z file fileoffset = some output ∧
      Returns (symbolReply output) (symbols z.inflate path fileoffset) [] sl)
    (hnames : sl.symbols.map Symbol.name =
      (elfImage file fileoffset).listed.map FileSymbol.name) :
    Delivered z file fileoffset ∧
      sl.symbols = (elfImage file fileoffset).listed.map
        (fun s => readBack (s.info (subtracted file fileoffset))) ∧
      sl.executable = decide ((elfImage file fileoffset).header.e_type = etExec) := by
  obtain ⟨-, hcompressed, hraw, hparsed, -, -, hexec⟩ := (received_iff hwf hpath).1 hreceived
  have hshort : ∀ s ∈ (elfImage file fileoffset).listed, s.name.length < 256 := by
    intro s hs
    have hmem : s.name ∈ sl.symbols.map Symbol.name := by
      rw [hnames]
      exact List.mem_map_of_mem hs
    obtain ⟨t, ht, hname⟩ := List.mem_map.1 hmem
    rw [← hname]
    exact parseSymbols_short hparsed t ht
  obtain ⟨hcount, hsymbols⟩ := (parseSymbols_entries (short_of_listed hshort)).1 hparsed
  rw [named_sentEntries, List.length_map] at hcount
  rw [named_sentEntries, List.map_map] at hsymbols
  rw [length_encode_sentEntries] at hraw
  exact ⟨⟨hshort, hcount, hraw, hcompressed⟩, hsymbols, hexec⟩

theorem received_of_delivered (hwf : (elfImage file fileoffset).WellFormed)
    (hpath : path.length ≠ 0 ∧ path.length ≤ maximumProtocolStringLength)
    (h : Delivered z file fileoffset) :
    ∃ sl : SymbolList, (∃ output, getSymbolListFromFile z file fileoffset = some output ∧
        Returns (symbolReply output) (symbols z.inflate path fileoffset) [] sl) ∧
      sl.symbols = (elfImage file fileoffset).listed.map
        (fun s => readBack (s.info (subtracted file fileoffset))) ∧
      sl.executable = decide ((elfImage file fileoffset).header.e_type = etExec) := by
  have hshort := short_of_listed h.short
  have hparsed := (parseSymbols_entries hshort).2
    ⟨by rw [named_sentEntries, List.length_map]; exact h.count, rfl⟩
  refine ⟨⟨path, fileoffset, decide ((elfImage file fileoffset).header.e_type = etExec),
    (named (sentEntries file fileoffset)).map readBack⟩, ?_, ?_, rfl⟩
  · refine (received_iff hwf hpath).2 ⟨?_, h.compressed, ?_, hparsed, rfl, rfl, rfl⟩
    · intro si hsi
      have hlt := hshort si hsi
      have hsize : tempBufSize = 65536 := rfl
      rw [SymbolInfo.length_encode]
      omega
    · rw [length_encode_sentEntries]
      exact h.raw
  · rw [named_sentEntries, List.map_map]
    rfl

end Delivery

/-! ## Round trip -/

section RoundTrip

theorem size_toInt_iff (st_size : UInt64) :
    st_size.toUInt32.toInt32.toInt = (st_size.toNat : Int) ↔ st_size.toNat < 2 ^ 31 := by
  constructor
  · intro h
    have := Int32.toInt_lt st_size.toUInt32.toInt32
    omega
  · intro h
    have hlow : st_size.toUInt32.toNat = st_size.toNat := by
      rw [UInt64.toNat_toUInt32]
      exact Nat.mod_eq_of_lt (by omega)
    rw [toInt_toInt32 (by omega), hlow]

theorem info_toInt (st_info : UInt8) :
    st_info.toUInt32.toInt32.toInt = (st_info.toNat : Int) := by
  have hlt := st_info.toNat_lt
  rw [toInt_toInt32 (by simp; omega)]
  simp

theorem view_eq_iff (sub p_vaddr : UInt64) (s : FileSymbol) :
    (readBack (s.info sub)).view = fileView p_vaddr s ↔
      sub = p_vaddr ∧ s.st_size.toNat < 2 ^ 31 := by
  simp only [Symbol.view, fileView, readBack, FileSymbol.info, Prod.mk.injEq, size_toInt_iff,
    info_toInt, and_true, UInt64.sub_right_inj]

variable {z : Zlib} {file path : List UInt8} {fileoffset : UInt32}

theorem names_of_views {symbols : List Symbol} {listed : List FileSymbol} {p_vaddr : UInt64}
    (h : symbols.map Symbol.view = listed.map (fileView p_vaddr)) :
    symbols.map Symbol.name = listed.map FileSymbol.name := by
  have hthird := congrArg (List.map fun v : UInt64 × Int × Int × List UInt8 => v.2.2.2) h
  rw [List.map_map, List.map_map] at hthird
  exact hthird

theorem roundTrips_iff (hwf : (elfImage file fileoffset).WellFormed)
    (hpath : path.length ≠ 0 ∧ path.length ≤ maximumProtocolStringLength) :
    RoundTrips z file fileoffset path ↔
      Delivered z file fileoffset ∧ ∀ s ∈ (elfImage file fileoffset).listed,
        subtracted file fileoffset = (elfImage file fileoffset).p_vaddr ∧
          s.st_size.toNat < 2 ^ 31 := by
  constructor
  · rintro ⟨sl, hreceived, hviews⟩
    obtain ⟨hdelivered, hsymbols, -⟩ :=
      delivered_of_names hwf hpath hreceived (names_of_views hviews)
    refine ⟨hdelivered, fun s hs => ?_⟩
    rw [hsymbols, List.map_map, List.map_inj_left] at hviews
    exact (view_eq_iff _ _ s).1 (hviews s hs)
  · rintro ⟨hdelivered, hsame⟩
    obtain ⟨sl, hreceived, hsymbols, -⟩ := received_of_delivered hwf hpath hdelivered
    refine ⟨sl, hreceived, ?_⟩
    rw [hsymbols, List.map_map, List.map_inj_left]
    exact fun s hs => (view_eq_iff _ _ s).2 (hsame s hs)

end RoundTrip

/-- For an ELF64 file: exactly when every name fits into its length byte, every size into an
    `int`, the address of the first segment into another, and the list is one that the client
    accepts. -/
theorem symbols_roundTrip_iff (z : Zlib) (file path : List UInt8) (fileoffset : UInt32)
    (hclass : isClass32 file fileoffset = false) (hwf : (elfImage file fileoffset).WellFormed)
    (hpath : path.length ≠ 0 ∧ path.length ≤ maximumProtocolStringLength) :
    RoundTrips z file fileoffset path ↔
      Delivered z file fileoffset ∧
        (∀ s ∈ (elfImage file fileoffset).listed, s.st_size.toNat < 2 ^ 31) ∧
        ((elfImage file fileoffset).listed = [] ∨
          asInt (elfImage file fileoffset).p_vaddr = (elfImage file fileoffset).p_vaddr) := by
  have hsub : subtracted file fileoffset = asInt (elfImage file fileoffset).p_vaddr := by
    rw [subtracted, elfImage, hclass]
    rfl
  rw [roundTrips_iff hwf hpath, hsub]
  constructor
  · rintro ⟨hdelivered, hall⟩
    refine ⟨hdelivered, fun s hs => (hall s hs).2, ?_⟩
    cases hlisted : (elfImage file fileoffset).listed with
    | nil => exact Or.inl rfl
    | cons s rest => exact Or.inr (hall s (by rw [hlisted]; exact List.mem_cons_self)).1
  · rintro ⟨hdelivered, hsizes, hoffset⟩
    refine ⟨hdelivered, fun s hs => ⟨?_, hsizes s hs⟩⟩
    rcases hoffset with hnone | hfits
    · rw [hnone] at hs
      cases hs
    · exact hfits

/-- A file with one segment, a symbol table with one symbol behind the empty one, and its
    string table. -/
def sampleElf64 (e_type : UInt16) (p_vaddr : UInt64) (name : List UInt8) : List UInt8 :=
  [0x7f, 0x45, 0x4c, 0x46, 2, 1, 1, 0, 0, 0, 0, 0, 0, 0, 0, 0] ++
    (u16 e_type ++ u16 62 ++ u32 1 ++ u64 0 ++ u64 64 ++ u64 120 ++ u32 0 ++
      u16 64 ++ u16 56 ++ u16 1 ++ u16 64 ++ u16 3 ++ u16 2) ++
    (u32 1 ++ u32 5 ++ u64 0 ++ u64 p_vaddr ++ u64 p_vaddr ++ u64 0x2000 ++ u64 0x2000 ++
      u64 0x1000) ++
    List.replicate 64 0 ++
    (u32 0 ++ u32 2 ++ u64 0 ++ u64 0 ++ u64 312 ++ u64 48 ++ u32 2 ++ u32 1 ++ u64 8 ++ u64 24) ++
    (u32 0 ++ u32 3 ++ u64 0 ++ u64 0 ++ u64 360 ++ u64 (UInt64.ofNat (name.length + 2)) ++ u32 0 ++
      u32 0 ++ u64 1 ++ u64 0) ++
    List.replicate 24 0 ++
    (u32 1 ++ u8 0x12 ++ u8 0 ++ u16 1 ++ u64 (p_vaddr + 0x1000) ++ u64 16) ++
    ([0] ++ name ++ [0])

theorem sampleElf64_wellFormed : (elfImage (sampleElf64 etDyn 0 [0x66]) 0).WellFormed where
  magic := by decide
  phentsize := by decide
  shentsize := by decide
  phdrs := by decide
  shdrs := by decide
  load := by decide
  shstrndx := by decide
  link := by decide
  names := by decide

theorem symbols_roundTrip_sample : RoundTrips markedZlib (sampleElf64 etDyn 0 [0x66]) 0 [0x2f] :=
  (symbols_roundTrip_iff markedZlib _ [0x2f] 0 rfl sampleElf64_wellFormed (by decide)).2
    ⟨⟨by decide, by decide, by decide, by decide⟩, by decide, Or.inr (by decide)⟩

def longName : List UInt8 := List.replicate 256 0x66

theorem longName_wellFormed : (elfImage (sampleElf64 etDyn 0 longName) 0).WellFormed where
  magic := by decide
  phentsize := by decide
  shentsize := by decide
  phdrs := by decide
  shdrs := by decide
  load := by decide
  shstrndx := by decide
  link := by decide
  names := by decide +kernel

theorem symbols_not_roundTrip :
    ¬ ∀ (z : Zlib) (file path : List UInt8) (fileoffset : UInt32),
      isClass32 file fileoffset = false → (elfImage file fileoffset).WellFormed →
      path.length ≠ 0 ∧ path.length ≤ maximumProtocolStringLength →
      RoundTrips z file fileoffset path := by
  intro h
  obtain ⟨sl, hreceived, hviews⟩ := h markedZlib (sampleElf64 etDyn 0 longName) [0x2f] 0 rfl
    longName_wellFormed (by decide)
  obtain ⟨hdelivered, -⟩ := delivered_of_names longName_wellFormed (by decide) hreceived
    (names_of_views hviews)
  have hshort := hdelivered.short
  exact absurd hshort (by decide +kernel)

/-! ## Addresses at run time -/

/-- The loop of `symbol list`: `keep` is the filter on names. -/
def listSymbols (executable : Bool) (moduleBase : UInt64) (keep : Symbol → Bool) :
    Nat → List Symbol → List Symbol
  | _, [] => []
  | limit, symbol :: rest =>
    if !keep symbol then listSymbols executable moduleBase keep limit rest
    else
      let symbol :=
        if !executable && moduleBase != 0 then
          { symbol with address := symbol.address + moduleBase }
        else symbol
      symbol :: if limit ≤ 1 then [] else listSymbols executable moduleBase keep (limit - 1) rest

/-- `symbol list --module-base`, with a limit that is not reached and no filter, reports each
    symbol of the file at its distance from the first segment, which is at the module base. -/
def ReportsRunTime (z : Zlib) (file : List UInt8) (fileoffset : UInt32) (path : List UInt8)
    (moduleBase : UInt64) (limit : Nat) : Prop :=
  ∃ sl : SymbolList,
    (∃ output, getSymbolListFromFile z file fileoffset = some output ∧
      Returns (symbolReply output) (symbols z.inflate path fileoffset) [] sl) ∧
    (listSymbols sl.executable moduleBase (fun _ => true) limit sl.symbols).map
        (fun s => (s.name, s.address)) =
      (elfImage file fileoffset).listed.map fun s =>
        (s.name, moduleBase + (s.st_value - (elfImage file fileoffset).p_vaddr))

/-- What is taken off by the server and added by the command line makes up for the address of
    the first segment. -/
def OffsetsMatch (file : List UInt8) (fileoffset : UInt32) (moduleBase : UInt64) : Prop :=
  if (elfImage file fileoffset).header.e_type = etExec then
    moduleBase + subtracted file fileoffset = (elfImage file fileoffset).p_vaddr
  else subtracted file fileoffset = (elfImage file fileoffset).p_vaddr

instance (file : List UInt8) (fileoffset : UInt32) (moduleBase : UInt64) :
    Decidable (OffsetsMatch file fileoffset moduleBase) :=
  inferInstanceAs (Decidable
    (if (elfImage file fileoffset).header.e_type = etExec then
      moduleBase + subtracted file fileoffset = (elfImage file fileoffset).p_vaddr
    else subtracted file fileoffset = (elfImage file fileoffset).p_vaddr))

section RunTime

variable {z : Zlib} {file path : List UInt8} {fileoffset : UInt32} {moduleBase : UInt64}

def listedAt (executable : Bool) (moduleBase : UInt64) (symbol : Symbol) : Symbol :=
  if !executable && moduleBase != 0 then { symbol with address := symbol.address + moduleBase }
  else symbol

theorem listSymbols_all (executable : Bool) (moduleBase : UInt64) (symbols : List Symbol) :
    ∀ limit, 0 < limit → listSymbols executable moduleBase (fun _ => true) limit symbols =
      (symbols.take limit).map (listedAt executable moduleBase) := by
  induction symbols with
  | nil => intro limit _; simp [listSymbols]
  | cons symbol rest ih =>
    intro limit hlimit
    obtain ⟨limit, rfl⟩ : ∃ n, limit = n + 1 := ⟨limit - 1, by omega⟩
    have hstep : listSymbols executable moduleBase (fun _ => true) (limit + 1) (symbol :: rest) =
        listedAt executable moduleBase symbol ::
          if limit + 1 ≤ 1 then []
          else listSymbols executable moduleBase (fun _ => true) limit rest := rfl
    rw [hstep, List.take_succ_cons, List.map_cons]
    -- the last symbol within the limit ends the loop
    by_cases hlast : limit = 0
    · subst hlast
      rfl
    · rw [if_neg (by omega), ih limit (by omega)]

theorem listedAt_name (executable : Bool) (symbol : Symbol) :
    (listedAt executable moduleBase symbol).name = symbol.name := by
  unfold listedAt
  split <;> rfl

theorem listedAt_address (executable : Bool) (symbol : Symbol) (hbase : moduleBase ≠ 0) :
    (listedAt executable moduleBase symbol).address =
      if executable then symbol.address else symbol.address + moduleBase := by
  unfold listedAt
  cases executable <;> simp [hbase]

theorem listSymbols_uncut (executable : Bool) {symbols : List Symbol} {limit : Nat}
    (h : (listSymbols executable moduleBase (fun _ => true) limit symbols).length < limit) :
    listSymbols executable moduleBase (fun _ => true) limit symbols =
      symbols.map (listedAt executable moduleBase) := by
  have hall := listSymbols_all executable moduleBase symbols limit (by omega)
  rw [hall, List.length_map, List.length_take] at h
  rw [hall, List.take_of_length_le (by omega)]

theorem reported_iff (hbase : moduleBase ≠ 0) (s : FileSymbol) :
    ((listedAt (decide ((elfImage file fileoffset).header.e_type = etExec)) moduleBase
        (readBack (s.info (subtracted file fileoffset)))).name,
      (listedAt (decide ((elfImage file fileoffset).header.e_type = etExec)) moduleBase
        (readBack (s.info (subtracted file fileoffset)))).address) =
      (s.name, moduleBase + (s.st_value - (elfImage file fileoffset).p_vaddr)) ↔
      OffsetsMatch file fileoffset moduleBase := by
  rw [listedAt_name, listedAt_address _ _ hbase, Prod.mk.injEq, OffsetsMatch]
  simp only [readBack, FileSymbol.info, true_and, decide_eq_true_eq]
  generalize subtracted file fileoffset = sub
  generalize (elfImage file fileoffset).p_vaddr = p_vaddr
  generalize s.st_value = st_value
  split
  · constructor <;> intro h <;> grind
  · constructor <;> intro h <;> grind

theorem names_of_reported {symbols : List Symbol} {listed : List FileSymbol} {executable : Bool}
    {at' : FileSymbol → UInt64}
    (h : (symbols.map (listedAt executable moduleBase)).map (fun s => (s.name, s.address)) =
      listed.map fun s => (s.name, at' s)) :
    symbols.map Symbol.name = listed.map FileSymbol.name := by
  have hfirst := congrArg (List.map fun v : List UInt8 × UInt64 => v.1) h
  rw [List.map_map, List.map_map, List.map_map] at hfirst
  have hsame : symbols.map Symbol.name =
      symbols.map fun s => (listedAt executable moduleBase s).name :=
    List.map_congr_left fun s _ => (listedAt_name executable s).symm
  rw [hsame]
  exact hfirst

theorem reported_of_reportsRunTime (hwf : (elfImage file fileoffset).WellFormed)
    (hpath : path.length ≠ 0 ∧ path.length ≤ maximumProtocolStringLength)
    (hbase : moduleBase ≠ 0) {limit : Nat}
    (hlimit : (elfImage file fileoffset).listed.length < limit)
    (h : ReportsRunTime z file fileoffset path moduleBase limit) :
    Delivered z file fileoffset ∧
      ∀ s ∈ (elfImage file fileoffset).listed, OffsetsMatch file fileoffset moduleBase := by
  obtain ⟨sl, hreceived, hreported⟩ := h
  have hlength := congrArg List.length hreported
  rw [List.length_map, List.length_map] at hlength
  rw [listSymbols_uncut sl.executable (by omega)] at hreported
  obtain ⟨hdelivered, hsymbols, hexec⟩ :=
    delivered_of_names hwf hpath hreceived (names_of_reported hreported)
  refine ⟨hdelivered, fun s hs => ?_⟩
  rw [hsymbols, hexec, List.map_map, List.map_map, List.map_inj_left] at hreported
  exact (reported_iff hbase s).1 (hreported s hs)

end RunTime

/-- Exactly when the list comes through, and it is empty or: the address of the first segment
    is what is taken off, for a shared object, or is that and the module base, for an
    executable. -/
theorem symbols_runTime_iff (z : Zlib) (file path : List UInt8) (fileoffset : UInt32)
    (moduleBase : UInt64) (limit : Nat) (hwf : (elfImage file fileoffset).WellFormed)
    (_htype : (elfImage file fileoffset).header.e_type = etExec ∨
      (elfImage file fileoffset).header.e_type = etDyn)
    (hpath : path.length ≠ 0 ∧ path.length ≤ maximumProtocolStringLength)
    (hbase : moduleBase ≠ 0) (hlimit : (elfImage file fileoffset).listed.length < limit) :
    ReportsRunTime z file fileoffset path moduleBase limit ↔
      Delivered z file fileoffset ∧
        ((elfImage file fileoffset).listed = [] ∨ OffsetsMatch file fileoffset moduleBase) := by
  constructor
  · intro h
    obtain ⟨hdelivered, hall⟩ := reported_of_reportsRunTime hwf hpath hbase hlimit h
    refine ⟨hdelivered, ?_⟩
    cases hlisted : (elfImage file fileoffset).listed with
    | nil => exact Or.inl rfl
    | cons s rest => exact Or.inr (hall s (by rw [hlisted]; exact List.mem_cons_self))
  · rintro ⟨hdelivered, hmatch⟩
    obtain ⟨sl, hreceived, hsymbols, hexec⟩ := received_of_delivered hwf hpath hdelivered
    refine ⟨sl, hreceived, ?_⟩
    have hlength : sl.symbols.length < limit := by rw [hsymbols, List.length_map]; exact hlimit
    rw [listSymbols_all _ _ _ _ (by omega), List.take_of_length_le (by omega), hsymbols, hexec,
      List.map_map, List.map_map, List.map_inj_left]
    intro s hs
    rcases hmatch with hnone | hmatch
    · rw [hnone] at hs
      cases hs
    · exact (reported_iff hbase s).2 hmatch

theorem symbols_runTime_sample :
    ReportsRunTime markedZlib (sampleElf64 etDyn 0 [0x66]) 0 [0x2f] 0x7f0000000000 10000 :=
  (symbols_runTime_iff markedZlib _ [0x2f] 0 _ 10000 sampleElf64_wellFormed (Or.inr (by decide))
    (by decide) (by decide) (by decide)).2
    ⟨⟨by decide, by decide, by decide, by decide⟩, Or.inr (by decide)⟩

/-- An executable whose segment is mapped where the file says. -/
theorem execElf64_wellFormed : (elfImage (sampleElf64 etExec 0x400000 [0x66]) 0).WellFormed where
  magic := by decide
  phentsize := by decide
  shentsize := by decide
  phdrs := by decide
  shdrs := by decide
  load := by decide
  shstrndx := by decide
  link := by decide
  names := by decide

theorem symbols_not_runTime :
    ¬ ∀ (z : Zlib) (file path : List UInt8) (fileoffset : UInt32) (moduleBase : UInt64)
      (limit : Nat), (elfImage file fileoffset).WellFormed →
      ((elfImage file fileoffset).header.e_type = etExec ∨
        (elfImage file fileoffset).header.e_type = etDyn) →
      path.length ≠ 0 ∧ path.length ≤ maximumProtocolStringLength → moduleBase ≠ 0 →
      (elfImage file fileoffset).listed.length < limit →
      ReportsRunTime z file fileoffset path moduleBase limit := by
  intro h
  have hlimit : (elfImage (sampleElf64 etExec 0x400000 [0x66]) 0).listed.length < 10000 := by
    decide
  have hreports := h markedZlib (sampleElf64 etExec 0x400000 [0x66]) [0x2f] 0 0x400000 10000
    execElf64_wellFormed (Or.inl (by decide)) (by decide) (by decide) hlimit
  -- the file lists one symbol, so that the offsets have to match
  have hmatch := (reported_of_reportsRunTime execElf64_wellFormed (by decide) (by decide) hlimit
    hreports).2
  exact absurd hmatch (by decide)

end CheatEngine.Client
