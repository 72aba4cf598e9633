/-
  CheatEngine.Cli.Output

  Output of a command's data (internal/cli/output.go), with and without `--fields`.

  Without `--fields` the data are written as they are.  With it they are written to
  a text, the text is read into untyped maps, the paths are selected there, and the
  result is written again.

    * `Selects` says what is seen in the output at every path; it depends on which
      paths are selected, not on their order.
    * A number on the way became a float64, so that an integer comes back only if it
      is `Number.Kept`.
-/
import CheatEngine.Cli.Fields
import CheatEngine.Cli.Options

namespace CheatEngine.Cli

open CheatEngine.Lib
open CheatEngine.Lib.Go (ascii)
open CheatEngine.Client (Message text)

/-- `json.Marshal`: an infinity and NaN have no text. -/
def marshal (data : Json Number) : Except Message (Json Decimal) :=
  if data.numbers.all Number.finite then .ok (data.map Number.literal)
  else .error (text "json: unsupported value: %s")

/-- `json.Unmarshal` into a `map[string]any`. The map of `null` is nil, which is read like an
    empty one. -/
def unmarshal (encoded : Json Decimal) : Except Message (Heap Decimal × Cell Decimal) :=
  if encoded.numbers.all Decimal.inRange then
    match encoded with
    | .object members => .ok (Heap.empty.store (.object (mapMembers Decimal.toFloat64 members)))
    | .leaf .null => .ok (Heap.empty.store (.object []))
    | .leaf _ => .error (text "json: cannot unmarshal %s into Go value of type map[string]interface {}")
  else .error (text "json: cannot unmarshal number %s into Go value of type float64")

/-- The result: the heap with the map that was built, and the missing fields. -/
structure Filtered where
  heap : Heap Decimal
  root : Nat
  missing : List (List UInt8)

def filterOutputFields (data : Json Number) (fields : List (List UInt8)) :
    Except Message Filtered :=
  match marshal data with
  | .error _ => .error (text "encode output for --fields: %w")
  | .ok encoded =>
    match unmarshal encoded with
    | .error _ => .error (text "--fields requires object-shaped command data: %w")
    | .ok (heap, source) =>
      let selected := selectFields source heap.next fields (heap.alloc []) []
      .ok ⟨selected.1, heap.next, selected.2⟩

/-- What the encoder writes for the map that was built. -/
def Filtered.encode (f : Filtered) : Option (Json Decimal) :=
  (f.heap.encode (.map f.root)).map (Json.map Decimal.format)

/-! ## What is seen in the output -/

/-- A number of the data on its way through a float64. -/
def reprint (n : Number) : Decimal := n.literal.toFloat64.format

def Requested (data : Json Number) (fields : List (List UInt8)) (path : List Name) : Prop :=
  ∃ field ∈ fields, path = segments field ∧ data.get path ≠ none

/-- `R` has the values of the data at and below the requested paths, objects above them, and
    nothing else. -/
structure Selects (data : Json Number) (fields : List (List UInt8)) (R : Json Decimal) : Prop where
  selected : ∀ path, (∃ p, Requested data fields p ∧ p <+: path) →
    R.view path = (data.map reprint).view path
  above : ∀ path, (∀ p, Requested data fields p → ¬ p <+: path) →
    (path = [] ∨ ∃ p, Requested data fields p ∧ path <+: p) → R.view path = some none
  nothing : ∀ path, (∀ p, Requested data fields p → ¬ p <+: path) →
    ¬ (path = [] ∨ ∃ p, Requested data fields p ∧ path <+: p) → R.view path = none

section Selection

variable {data : Json Number} {fields fields' : List (List UInt8)} {R R' : Json Decimal}

theorem requested_congr (hmem : ∀ field, field ∈ fields' ↔ field ∈ fields) (path : List Name) :
    Requested data fields' path ↔ Requested data fields path := by
  simp only [Requested, hmem]

theorem Selects.view_eq (h : Selects data fields R) (h' : Selects data fields' R')
    (hmem : ∀ field, field ∈ fields' ↔ field ∈ fields) (path : List Name) :
    R'.view path = R.view path := by
  have hreq : ∀ p, Requested data fields' p ↔ Requested data fields p := requested_congr hmem
  by_cases hsel : ∃ p, Requested data fields p ∧ p <+: path
  · rw [h.selected path hsel, h'.selected path (by simpa only [hreq] using hsel)]
  · have hnone : ∀ p, Requested data fields p → ¬ p <+: path := fun p hp hle => hsel ⟨p, hp, hle⟩
    have hnone' : ∀ p, Requested data fields' p → ¬ p <+: path := fun p hp =>
      hnone p ((hreq p).1 hp)
    by_cases habove : path = [] ∨ ∃ p, Requested data fields p ∧ path <+: p
    · rw [h.above path hnone habove, h'.above path hnone' (by simpa only [hreq] using habove)]
    · rw [h.nothing path hnone habove, h'.nothing path hnone' (by simpa only [hreq] using habove)]

theorem exists_length_le {α : Type} (paths : List (List α)) :
    ∃ n, ∀ p ∈ paths, p.length ≤ n := by
  induction paths with
  | nil => exact ⟨0, fun p hp => absurd hp List.not_mem_nil⟩
  | cons path paths ih =>
    obtain ⟨n, hn⟩ := ih
    refine ⟨max path.length n, fun p hp => ?_⟩
    rcases List.mem_cons.1 hp with rfl | hp
    · exact Nat.le_max_left _ _
    · exact Nat.le_trans (hn p hp) (Nat.le_max_right _ _)

theorem unmarshal_object {members : List (Name × Json Number)}
    (hfinite : (Json.object members).numbers.all Number.finite = true) :
    ∃ h₀ source, unmarshal ((Json.object members).map Number.literal) = .ok (h₀, source) ∧
      h₀.Closed ∧ h₀.Shows source (((Json.object members).map Number.literal).map Decimal.toFloat64) := by
  have hrange : ((Json.object members).map Number.literal).numbers.all Decimal.inRange = true := by
    rw [Json.numbers_map, List.all_map, List.all_eq_true]
    exact fun n hn => inRange_literal (List.all_eq_true.1 hfinite n hn)
  have hempty : (Heap.empty : Heap Decimal).Closed := fun a name c ha => absurd ha (Nat.not_lt_zero a)
  obtain ⟨hg, hshows⟩ := Heap.store_spec
    (((Json.object members).map Number.literal).map Decimal.toFloat64) Heap.empty hempty
  exact ⟨_, _, if_pos hrange, hg.closed, hshows⟩

theorem filterOutputFields_spec {members : List (Name × Json Number)}
    (hfinite : (Json.object members).numbers.all Number.finite = true) (fields : List (List UInt8)) :
    ∃ f R, filterOutputFields (.object members) fields = .ok f ∧ f.encode = some R ∧
      Selects (.object members) fields R ∧
      f.missing = fields.filter fun field => ((Json.object members).get (segments field)).isNone := by
  obtain ⟨h₀, source, hunmarshal, hclosed, hbelow, hview⟩ := unmarshal_object hfinite
  generalize hdata : Json.object members = data at *
  have hmarshal : marshal data = .ok (data.map Number.literal) := if_pos hfinite
  obtain ⟨own, hroot, hproj, hmissing⟩ := selectFields_projected hclosed hbelow
    (fun p hp => absurd hp List.not_mem_nil) (projected_alloc h₀ source) fields []
  rw [List.nil_append] at hproj hmissing
  -- a path exists in the maps just when it exists in the data
  have hexists : ∀ path, (h₀.walk source path).isSome = (data.get path).isSome := by
    intro path
    have hpath := congrArg Option.isSome (hview path)
    rwa [Heap.view, Json.view, Option.isSome_map, Option.isSome_map, Json.get_map, Json.get_map,
      Option.isSome_map, Option.isSome_map] at hpath
  have hreq : ∀ path, path ∈ existing h₀ source fields ↔ Requested data fields path := by
    intro path
    simp only [existing, List.mem_map, List.mem_filter, hexists, Requested, Option.isSome_iff_ne_none]
    constructor
    · rintro ⟨field, ⟨hfield, hsome⟩, rfl⟩
      exact ⟨field, hfield, rfl, hsome⟩
    · rintro ⟨field, hfield, rfl, hsome⟩
      exact ⟨field, ⟨hfield, hsome⟩, rfl⟩
  have hdone : ∀ p ∈ existing h₀ source fields, p ≠ [] := by
    intro p hp
    obtain ⟨field, -, rfl, -⟩ := (hreq p).1 hp
    exact segments_ne_nil field
  -- the result is written out
  obtain ⟨depth, hdepth⟩ :=
    ((data.map Number.literal).map Decimal.toFloat64).exists_depth
  obtain ⟨longest, hlongest⟩ := exists_length_le (existing h₀ source fields)
  generalize hselect : selectFields source h₀.next fields (h₀.alloc []) [] = result at hproj hmissing
  obtain ⟨h, missing⟩ := result
  simp only at hproj hmissing
  have hbound : ∀ path, h.walk (.map h₀.next) path ≠ none → path.length ≤ max depth longest := by
    intro path hpath
    rw [← hroot] at hpath
    by_cases hsel : ∃ p ∈ existing h₀ source fields, p <+: path
    · rw [hproj.walk_selected hclosed hbelow hdone hsel] at hpath
      refine Nat.le_trans (hdepth path ?_) (Nat.le_max_left _ _)
      intro hnone
      have hpath' := hview path
      rw [Heap.view, Json.view, hnone] at hpath'
      exact hpath (Option.map_eq_none_iff.1 hpath')
    · by_cases hu : Used (existing h₀ source fields) [] path
      · rcases hu.1 with hle | ⟨p, hp, hle⟩
        · rw [List.prefix_nil.1 hle]
          exact Nat.zero_le _
        · exact Nat.le_trans (Nat.le_trans hle.length_le (hlongest p hp)) (Nat.le_max_right _ _)
      · exact absurd (hproj.walk_nothing hdone (fun p hp hle => hsel ⟨p, hp, hle⟩) hu) hpath
  have hmaps : ∀ path a, h.walk (.map h₀.next) path = some (.map a) → a < h.next := by
    intro path a hwalk
    rw [← hroot] at hwalk
    exact hproj.walk_below hclosed hbelow hdone hwalk
  obtain ⟨t, ht⟩ := Option.isSome_iff_exists.1 (Heap.encode_isSome hbound hmaps)
  have hR : ∀ path, (t.map Decimal.format).view path =
      (h.view (.map h₀.next) path).map (Option.map (Leaf.map Decimal.format)) := by
    intro path
    rw [Json.view_map, Heap.view_encode ht]
  refine ⟨⟨h, h₀.next, missing⟩, t.map Decimal.format, ?_, by rw [Filtered.encode, ht]; rfl, ⟨?_, ?_, ?_⟩, ?_⟩
  · simp only [filterOutputFields, hmarshal, hunmarshal, hselect]
  · rintro path ⟨p, hp, hle⟩
    have hsel := hproj.walk_selected hclosed hbelow hdone ⟨p, (hreq p).2 hp, hle⟩
    rw [hroot] at hsel
    rw [hR, Heap.view, hsel, ← Heap.view, hview, ← Json.view_map, Json.map_map, Json.map_map]
    rfl
  · rintro path hnone habove
    have hu : Used (existing h₀ source fields) [] path := by
      refine ⟨?_, fun p hp => hnone p ((hreq p).1 hp)⟩
      rcases habove with heq | ⟨p, hp, hle⟩
      · exact .inl (List.prefix_nil.2 heq)
      · exact .inr ⟨p, (hreq p).2 hp, hle⟩
    have hwalk := hproj.walk_used hu
    rw [hroot] at hwalk
    rw [hR, Heap.view, hwalk]
    rfl
  · rintro path hnone habove
    have hunused : ¬ Used (existing h₀ source fields) [] path := by
      rintro ⟨hle, -⟩
      refine habove (hle.imp List.prefix_nil.1 ?_)
      rintro ⟨p, hp, hle⟩
      exact ⟨p, (hreq p).1 hp, hle⟩
    have hwalk := hproj.walk_nothing hdone (fun p hp => hnone p ((hreq p).1 hp)) hunused
    rw [hroot] at hwalk
    rw [hR, Heap.view, hwalk]
    rfl
  · refine hmissing.trans (List.filter_congr fun field _ => ?_)
    rw [← Option.not_isSome, ← Option.not_isSome, hexists]

end Selection

/-! ## Exactness -/

/-- What `--fields` promises of an output `R` for data that are written as `J` without it. -/
structure Exact (J : Json Decimal) (fields missing : List (List UInt8)) (R : Json Decimal) :
    Prop where
  object : R.view [] = some none
  /-- A requested path has the value of the data, with everything below it. -/
  value : ∀ field ∈ fields, J.get (segments field) ≠ none → ∀ path,
    R.view (segments field ++ path) = J.view (segments field ++ path)
  /-- What is there is at, below or above a requested path. -/
  only : ∀ path, R.get path ≠ none → path = [] ∨ ∃ field ∈ fields,
    J.get (segments field) ≠ none ∧ (segments field <+: path ∨ path <+: segments field)
  missing : missing = fields.filter fun field => (J.get (segments field)).isNone

/-- Every integer at or below a requested path comes back. -/
def FieldsKept (data : Json Number) (fields : List (List UInt8)) : Prop :=
  ∀ field ∈ fields, ∀ path l, data.view (segments field ++ path) = some (some l) →
    ∀ n ∈ l.numbers, n.Kept

section Exactness

variable {data : Json Number} {fields : List (List UInt8)} {R : Json Decimal}

theorem numbers_view {path : List Name} {l : Leaf Number} (hview : data.view path = some (some l)) :
    ∀ n ∈ l.numbers, n ∈ data.numbers := by
  obtain ⟨t, hget, hnode⟩ := Option.map_eq_some_iff.1 hview
  cases t with
  | leaf l' =>
    obtain rfl : l' = l := Option.some.inj hnode
    exact Json.numbers_get hget
  | object members => cases hnode

theorem reprint_leaf_iff {l : Leaf Number} (hfinite : ∀ n ∈ l.numbers, n.finite = true) :
    l.map reprint = l.map Number.literal ↔ ∀ n ∈ l.numbers, n.Kept := by
  rw [Leaf.map_eq_map_iff]
  exact forall₂_congr fun n hn => format_literal_iff (hfinite n hn)

theorem view_reprint_iff (hfinite : data.numbers.all Number.finite = true) (path : List Name) :
    (data.map reprint).view path = (data.map Number.literal).view path ↔
      ∀ l, data.view path = some (some l) → ∀ n ∈ l.numbers, n.Kept := by
  rw [Json.view_map, Json.view_map]
  cases hview : data.view path with
  | none => simp
  | some node =>
    cases node with
    | none => simp
    | some l =>
      have hleaf : ∀ n ∈ l.numbers, n.finite = true := fun n hn =>
        List.all_eq_true.1 hfinite n (numbers_view hview n hn)
      simp only [Option.map_some, Option.some.injEq, reprint_leaf_iff hleaf, forall_eq']

theorem get_literal_eq_none_iff (path : List Name) :
    (data.map Number.literal).get path = none ↔ data.get path = none := by
  rw [Json.get_map, Option.map_eq_none_iff]

theorem Selects.exact_iff (h : Selects data fields R)
    (hfinite : data.numbers.all Number.finite = true) :
    Exact (data.map Number.literal) fields
      (fields.filter fun field => (data.get (segments field)).isNone) R ↔
    FieldsKept data fields := by
  have hvalue : ∀ field ∈ fields, data.get (segments field) ≠ none → ∀ path,
      R.view (segments field ++ path) = (data.map reprint).view (segments field ++ path) :=
    fun field hfield hsome path =>
      h.selected _ ⟨_, ⟨field, hfield, rfl, hsome⟩, List.prefix_append _ path⟩
  constructor
  · intro hexact field hfield path l hview
    have hsome : data.get (segments field) ≠ none := by
      intro hnone
      rw [Json.view, Json.get_append, hnone] at hview
      cases hview
    have hexact' := hexact.value field hfield (mt (get_literal_eq_none_iff _).1 hsome) path
    rw [hvalue field hfield hsome path] at hexact'
    exact (view_reprint_iff hfinite _).1 hexact' l hview
  · intro hkept
    refine ⟨?_, fun field hfield hsome path => ?_, fun path hpath => ?_, ?_⟩
    · -- no field is the empty path
      refine h.above [] (fun p hp hle => ?_) (.inl rfl)
      obtain ⟨field, -, rfl, -⟩ := hp
      exact segments_ne_nil field (List.prefix_nil.1 hle)
    · rw [hvalue field hfield (mt (get_literal_eq_none_iff _).2 hsome) path, view_reprint_iff hfinite]
      exact hkept field hfield path
    · by_contra hout
      rw [not_or, not_exists] at hout
      have hnone : R.view path = none := by
        refine h.nothing path (fun p hp hle => ?_) ?_
        · obtain ⟨field, hfield, rfl, hsome⟩ := hp
          exact hout.2 field ⟨hfield, mt (get_literal_eq_none_iff _).1 hsome, .inl hle⟩
        · rintro (rfl | ⟨p, ⟨field, hfield, rfl, hsome⟩, hle⟩)
          · exact hout.1 rfl
          · exact hout.2 field ⟨hfield, mt (get_literal_eq_none_iff _).1 hsome, .inr hle⟩
      exact hpath (Option.map_eq_none_iff.1 hnone)
    · refine List.filter_congr fun field _ => ?_
      rw [Json.get_map, Option.isNone_map]

end Exactness

theorem finite_of_filterOutputFields {data : Json Number} {fields : List (List UInt8)}
    {f : Filtered} (h : filterOutputFields data fields = .ok f) :
    data.numbers.all Number.finite = true := by
  by_contra hfinite
  have hmarshal : marshal data = .error (text "json: unsupported value: %s") := if_neg hfinite
  rw [filterOutputFields, hmarshal] at h
  cases h

theorem filterOutputFields_exact_iff (members : List (Name × Json Number))
    (fields : List (List UInt8)) :
    (∃ f R, filterOutputFields (.object members) fields = .ok f ∧ f.encode = some R ∧
      Exact ((Json.object members).map Number.literal) fields f.missing R) ↔
    (Json.object members).numbers.all Number.finite = true ∧
      FieldsKept (.object members) fields := by
  constructor
  · rintro ⟨f, R, hfilter, hencode, hexact⟩
    have hfinite := finite_of_filterOutputFields hfilter
    obtain ⟨f', R', hfilter', hencode', hselects, hmissing⟩ :=
      filterOutputFields_spec hfinite fields
    obtain rfl : f' = f := Except.ok.inj (hfilter'.symm.trans hfilter)
    obtain rfl : R' = R := Option.some.inj (hencode'.symm.trans hencode)
    rw [hmissing] at hexact
    exact ⟨hfinite, (hselects.exact_iff hfinite).1 hexact⟩
  · rintro ⟨hfinite, hkept⟩
    obtain ⟨f, R, hfilter, hencode, hselects, hmissing⟩ := filterOutputFields_spec hfinite fields
    exact ⟨f, R, hfilter, hencode, hmissing ▸ (hselects.exact_iff hfinite).2 hkept⟩

theorem filterOutputFields_perm {members : List (Name × Json Number)}
    {fields fields' : List (List UInt8)} (hperm : fields'.Perm fields) {f : Filtered}
    {R : Json Decimal} (hfilter : filterOutputFields (.object members) fields = .ok f)
    (hencode : f.encode = some R) :
    ∃ f' R', filterOutputFields (.object members) fields' = .ok f' ∧ f'.encode = some R' ∧
      ∀ path, R'.view path = R.view path := by
  have hfinite := finite_of_filterOutputFields hfilter
  obtain ⟨f₀, R₀, hfilter₀, hencode₀, hselects, -⟩ := filterOutputFields_spec hfinite fields
  obtain rfl : f₀ = f := Except.ok.inj (hfilter₀.symm.trans hfilter)
  obtain rfl : R₀ = R := Option.some.inj (hencode₀.symm.trans hencode)
  obtain ⟨f', R', hfilter', hencode', hselects', -⟩ := filterOutputFields_spec hfinite fields'
  exact ⟨f', R', hfilter', hencode', hselects.view_eq hselects' fun field => hperm.mem_iff⟩

/-- Field projection is exact just when the data can be written and the integers at and below
    the requested paths come back from a float64. -/
theorem fieldProjection (members : List (Name × Json Number)) (fields : List (List UInt8)) :
    (∃ f R, filterOutputFields (.object members) fields = .ok f ∧ f.encode = some R ∧
      Exact ((Json.object members).map Number.literal) fields f.missing R ∧
      ∀ fields', fields'.Perm fields → ∃ f' R',
        filterOutputFields (.object members) fields' = .ok f' ∧ f'.encode = some R' ∧
        ∀ path, R'.view path = R.view path) ↔
    (Json.object members).numbers.all Number.finite = true ∧
      FieldsKept (.object members) fields := by
  rw [← filterOutputFields_exact_iff]
  constructor
  · rintro ⟨f, R, hfilter, hencode, hexact, -⟩
    exact ⟨f, R, hfilter, hencode, hexact⟩
  · rintro ⟨f, R, hfilter, hencode, hexact⟩
    exact ⟨f, R, hfilter, hencode, hexact, fun _ hperm => filterOutputFields_perm hperm hfilter hencode⟩

def largeData : List (Name × Json Number) :=
  [(ascii "data", .leaf (.number (.uint64 9007199254740993)))]

theorem fieldProjection_largeData :
    ¬ ∃ f R, filterOutputFields (.object largeData) [ascii "data"] = .ok f ∧
      f.encode = some R ∧
      Exact ((Json.object largeData).map Number.literal) [ascii "data"] f.missing R ∧
      ∀ fields', fields'.Perm [ascii "data"] → ∃ f' R',
        filterOutputFields (.object largeData) fields' = .ok f' ∧ f'.encode = some R' ∧
        ∀ path, R'.view path = R.view path := by
  rintro ⟨f, R, hfilter, hencode, hexact, -⟩
  have hkept := ((filterOutputFields_exact_iff _ _).1 ⟨f, R, hfilter, hencode, hexact⟩).2
  exact not_kept_two_pow_53_succ
    (hkept (ascii "data") List.mem_cons_self [] (.number (.uint64 9007199254740993)) rfl _
      List.mem_cons_self)

/-! ## `writeSuccess` -/

section Values

variable {ν : Type}

def jsonString (s : List UInt8) : Json ν := .leaf (.string (runesFrom 0 s))

def jsonBool (b : Bool) : Json ν := .leaf (.bool b)

def jsonList (items : List (Json ν)) : Json ν := .leaf (.array items)

def optional (name : String) (s : List UInt8) : List (Name × Json ν) :=
  if s = [] then [] else [(ascii name, jsonString s)]

/-- An integer of any width. -/
def jsonInt (v : Int) : Json Number :=
  .leaf (.number (if v < 0 then .int64 (Int64.ofInt v) else .uint64 (UInt64.ofNat v.toNat)))

def Document.toJson (d : Document) : Json ν :=
  .object ([(ascii "name", jsonString d.name), (ascii "description", jsonString d.description)] ++
    optional "content" d.content ++ optional "command" d.command)

def issueGuide : Json ν :=
  .object [
    (ascii "command", jsonString (ascii "cecli issue create --type <category> --message <text>")),
    (ascii "categories",
      jsonList (["bug", "requirement", "suggestion", "bad-output"].map fun s => jsonString (ascii s))),
    (ascii "message",
      jsonString (ascii "Store structured feedback locally; no external service is contacted."))]

end Values

def commandUsesServer (command : List UInt8) : Bool :=
  ["server ", "process ", "module ", "thread ", "debug ", "memory ", "remote ", "pipe ",
    "symbol "].any fun s => (ascii s).isPrefixOf command

def endpointLabel (env : Environment) (options : GlobalOptions) : List UInt8 :=
  if options.native then ascii "local://" ++ env.goos else options.endpoint

def successMeta (env : Environment) (options : GlobalOptions) (command : List UInt8)
    (result : CommandResult) (missing : List (List UInt8)) : Json Number :=
  .object (
    (if options.fields = [] then [] else
      (if missing = [] then [] else [(ascii "missing_fields", jsonList (missing.map jsonString))]) ++
        [(ascii "fields", jsonList (options.fields.map jsonString))]) ++
    result.metadata ++
    (if commandUsesServer command then
      [(ascii "endpoint", jsonString (endpointLabel env options))] else []) ++
    [(ascii "version", jsonString env.version), (ascii "commit", jsonString env.commit),
      (ascii "build_date", jsonString env.buildDate),
      (ascii "duration_ms", .leaf (.number (.int64 env.elapsed)))])

def successEnvelope (env : Environment) (command : List UInt8) (data metadata : Json Decimal) :
    Json Decimal :=
  .object [(ascii "ok", jsonBool true), (ascii "command", jsonString command),
    (ascii "data", data), (ascii "meta", metadata),
    (ascii "rules", jsonList (env.rules.map Document.toJson)),
    (ascii "skills", jsonList (env.skills.map Document.toJson)), (ascii "issue", issueGuide)]

/-- What goes to standard output: nothing, a text for a human reader or a JSON document. -/
inductive Output
  | nothing
  | human
  | document (d : Json Decimal)

/-- The data of the envelope and the missing fields. -/
def outputData (options : GlobalOptions) (data : Json Number) :
    Except Message (Json Decimal × List (List UInt8)) :=
  if options.fields = [] then (marshal data).map fun encoded => (encoded, [])
  else
    match filterOutputFields data options.fields with
    | .error e => .error e
    | .ok filtered =>
      match filtered.encode with
      | some encoded => .ok (encoded, filtered.missing)
      | none => .error (text "json: unsupported value: encountered a cycle via %s")

/-- `writeSuccess`. The encoder writes all or nothing, and indents with `--pretty`. -/
def writeSuccess (env : Environment) (options : GlobalOptions) (command : List UInt8)
    (result : CommandResult) : Except Message Output :=
  if options.quiet then .ok .nothing
  else if options.human then .ok .human
  else
    match outputData options result.data with
    | .error e => .error e
    | .ok (data, missing) =>
      match marshal (successMeta env options command result missing) with
      | .error e => .error e
      | .ok metadata => .ok (.document (successEnvelope env command data metadata))

/-! ### The document -/

/-- No integer is refused. -/
theorem finite_jsonInt (v : Int) : (jsonInt v).numbers.all Number.finite = true := by
  rw [jsonInt]
  split <;> rfl

theorem finite_int_cons (name : Name) (v : Int) (members : List (Name × Json Number)) :
    (memberNumbers ((name, jsonInt v) :: members)).all Number.finite =
      (memberNumbers members).all Number.finite := by
  show ((jsonInt v).numbers ++ memberNumbers members).all Number.finite = _
  rw [List.all_append, finite_jsonInt, Bool.true_and]

@[simp] theorem memberNumbers_string_cons (name : Name) (s : List UInt8)
    (members : List (Name × Json Number)) :
    memberNumbers ((name, jsonString s) :: members) = memberNumbers members := rfl

@[simp] theorem memberNumbers_bool_cons (name : Name) (b : Bool)
    (members : List (Name × Json Number)) :
    memberNumbers ((name, jsonBool b) :: members) = memberNumbers members := rfl

section Documents

variable {env : Environment} {options : GlobalOptions} {command : List UInt8}
  {result : CommandResult} {missing : List (List UInt8)}

theorem itemNumbers_strings (texts : List (List UInt8)) :
    itemNumbers (texts.map jsonString : List (Json Number)) = [] := by
  induction texts with
  | nil => rfl
  | cons t texts ih => exact ih

theorem numbers_successMeta : (successMeta env options command result missing).numbers =
    memberNumbers result.metadata ++ [.int64 env.elapsed] := by
  have hfields : memberNumbers (if options.fields = [] then [] else
      (if missing = [] then [] else
        [(ascii "missing_fields", jsonList (missing.map jsonString))]) ++
        [(ascii "fields", jsonList (options.fields.map jsonString))] : List (Name × Json Number)) =
      [] := by
    split
    · rfl
    · rw [memberNumbers_append]
      split
      · show [] ++ (itemNumbers _ ++ []) = []
        rw [itemNumbers_strings]
        rfl
      · show (itemNumbers _ ++ []) ++ (itemNumbers _ ++ []) = []
        rw [itemNumbers_strings, itemNumbers_strings]
        rfl
  have hendpoint : memberNumbers (if commandUsesServer command then
      [(ascii "endpoint", jsonString (endpointLabel env options))] else [] :
        List (Name × Json Number)) = [] := by
    split <;> rfl
  show memberNumbers _ = _
  rw [memberNumbers_append, memberNumbers_append, memberNumbers_append, hfields, hendpoint,
    List.nil_append, List.append_nil]
  rfl

theorem writeSuccess_plain_iff {D : Json Decimal} (hfields : options.fields = []) :
    writeSuccess env options command result = .ok (.document D) ↔
      options.quiet = false ∧ options.human = false ∧
      result.data.numbers.all Number.finite = true ∧
      (memberNumbers result.metadata).all Number.finite = true ∧
      D = successEnvelope env command (result.data.map Number.literal)
        ((successMeta env options command result []).map Number.literal) := by
  have hmeta : (successMeta env options command result []).numbers.all Number.finite =
      (memberNumbers result.metadata).all Number.finite := by
    rw [numbers_successMeta, List.all_append]
    exact Bool.and_true _
  rw [writeSuccess, outputData, if_pos hfields, marshal]
  cases options.quiet with
  | true => simp
  | false =>
    cases options.human with
    | true => simp
    | false =>
      cases result.data.numbers.all Number.finite with
      | false => simp [Except.map]
      | true =>
        simp only [Except.map, if_true, Bool.false_eq_true, if_false, marshal, hmeta]
        cases (memberNumbers result.metadata).all Number.finite with
        | false => simp
        | true => simp [eq_comm]

theorem writeSuccess_fields (env : Environment) (command : List UInt8)
    {members : List (Name × Json Number)} (hfields : options.fields ≠ [])
    (hquiet : options.quiet = false) (hhuman : options.human = false)
    (hdata : result.data = .object members) (hfinite : result.data.numbers.all Number.finite = true)
    (hmeta : (memberNumbers result.metadata).all Number.finite = true) :
    ∃ R missing, Selects result.data options.fields R ∧
      writeSuccess env options command result = .ok (.document (successEnvelope env command R
        ((successMeta env options command result missing).map Number.literal))) := by
  rw [hdata] at hfinite ⊢
  obtain ⟨f, R, hfilter, hencode, hselects, -⟩ := filterOutputFields_spec hfinite options.fields
  have hnumbers : (successMeta env options command result f.missing).numbers.all Number.finite =
      true := by
    rw [numbers_successMeta, List.all_append, hmeta]
    rfl
  refine ⟨R, f.missing, hselects, ?_⟩
  rw [writeSuccess, outputData, if_neg hfields, hdata, hfilter, hquiet, hhuman]
  simp only [hencode, marshal, hnumbers, if_true, Bool.false_eq_true, if_false]

theorem exists_output (env : Environment) (options : GlobalOptions) (command : List UInt8)
    (result : CommandResult) {members : List (Name × Json Number)} (hdata : result.data = .object members)
    (hfinite : (memberNumbers members).all Number.finite = true) (hmeta : result.metadata = []) :
    ∃ output, writeSuccess env options command result = .ok output := by
  have hnumbers : result.data.numbers.all Number.finite = true := by
    rw [hdata]
    exact hfinite
  have hnone : (memberNumbers result.metadata).all Number.finite = true := by
    rw [hmeta]
    rfl
  by_cases hquiet : options.quiet = true
  · exact ⟨.nothing, by rw [writeSuccess, if_pos hquiet]⟩
  by_cases hhuman : options.human = true
  · exact ⟨.human, by rw [writeSuccess, if_neg hquiet, if_pos hhuman]⟩
  rw [Bool.not_eq_true] at hquiet hhuman
  by_cases hfields : options.fields = []
  · exact ⟨_, (writeSuccess_plain_iff hfields).2 ⟨hquiet, hhuman, hnumbers, hnone, rfl⟩⟩
  · obtain ⟨R, missing, -, hwrite⟩ :=
      writeSuccess_fields env command hfields hquiet hhuman hdata hnumbers hnone
    exact ⟨_, hwrite⟩

theorem writeSuccess_not_finite (env : Environment) (options : GlobalOptions)
    (command : List UInt8) (result : CommandResult) (hquiet : options.quiet = false)
    (hhuman : options.human = false) (hfinite : result.data.numbers.all Number.finite = false) :
    ∃ message, writeSuccess env options command result = .error message := by
  have hmarshal : marshal result.data = .error (text "json: unsupported value: %s") := by
    rw [marshal, hfinite]
    rfl
  rw [writeSuccess, hquiet, hhuman, outputData]
  by_cases hfields : options.fields = []
  · rw [if_pos hfields, hmarshal]
    exact ⟨_, rfl⟩
  · rw [if_neg hfields, filterOutputFields, hmarshal]
    exact ⟨_, rfl⟩

theorem writeSuccess_selected {D₀ : Json Decimal} {field : List UInt8} {path : List Name}
    {l : Leaf Number}
    (hplain : writeSuccess env { options with fields := [] } command result = .ok (.document D₀))
    (hfield : field ∈ options.fields)
    (hleaf : result.data.get (segments field ++ path) = some (.leaf l)) :
    ∃ D, writeSuccess env options command result = .ok (.document D) ∧
      D.get (ascii "data" :: (segments field ++ path)) = some (.leaf (l.map reprint)) ∧
      D₀.get (ascii "data" :: (segments field ++ path)) = some (.leaf (l.map Number.literal)) ∧
      ∀ n ∈ l.numbers, n.finite = true := by
  obtain ⟨hquiet, hhuman, hfinite, hmeta, rfl⟩ := (writeSuccess_plain_iff rfl).1 hplain
  -- a path into the data makes them an object
  obtain ⟨members, hdata⟩ : ∃ members, result.data = .object members := by
    obtain ⟨segment, segments', hsegments⟩ := List.exists_cons_of_ne_nil (segments_ne_nil field)
    cases hdata : result.data with
    | object members => exact ⟨members, rfl⟩
    | leaf l' =>
      rw [hdata, hsegments] at hleaf
      cases hleaf
  obtain ⟨R, missing, hselects, hwrite⟩ := writeSuccess_fields env command
    (List.ne_nil_of_mem hfield) hquiet hhuman hdata hfinite hmeta
  have hrequested : Requested result.data options.fields (segments field) := by
    refine ⟨field, hfield, rfl, fun hnone => ?_⟩
    rw [Json.get_append, hnone] at hleaf
    cases hleaf
  have hR : R.get (segments field ++ path) = some (.leaf (l.map reprint)) := by
    have hview := hselects.selected _ ⟨_, hrequested, List.prefix_append _ path⟩
    rw [Json.view, Json.view, Json.get_map, hleaf] at hview
    obtain ⟨t, hget, hnode⟩ := Option.map_eq_some_iff.1 hview
    cases t with
    | object members' => cases hnode
    | leaf l' =>
      obtain rfl : l' = l.map reprint := Option.some.inj hnode
      exact hget
  have hD₀ : (result.data.map Number.literal).get (segments field ++ path) =
      some (.leaf (l.map Number.literal)) := by
    rw [Json.get_map, hleaf]
    rfl
  exact ⟨_, hwrite, hR, hD₀, fun n hn => List.all_eq_true.1 hfinite n (Json.numbers_get hleaf n hn)⟩

end Documents

/-- A number at or below a requested path is printed with `--fields` as without it just when
    its integers come back from a float64. -/
theorem fieldsKeepNumbers (env : Environment) (options : GlobalOptions) (command : List UInt8)
    (result : CommandResult) (D₀ : Json Decimal) (field : List UInt8) (path : List Name)
    (l : Leaf Number)
    (hplain : writeSuccess env { options with fields := [] } command result = .ok (.document D₀))
    (hfield : field ∈ options.fields)
    (hleaf : result.data.get (segments field ++ path) = some (.leaf l)) :
    (∃ D, writeSuccess env options command result = .ok (.document D) ∧
      D.get (ascii "data" :: (segments field ++ path)) =
        D₀.get (ascii "data" :: (segments field ++ path))) ↔
    ∀ n ∈ l.numbers, n.Kept := by
  obtain ⟨D, hwrite, hD, hD₀, hfinite⟩ := writeSuccess_selected hplain hfield hleaf
  rw [← reprint_leaf_iff hfinite, hD₀]
  constructor
  · rintro ⟨D', hwrite', hD'⟩
    obtain rfl := Output.document.inj (Except.ok.inj (hwrite'.symm.trans hwrite))
    exact Json.leaf.inj (Option.some.inj (hD.symm.trans hD'))
  · intro hkept
    exact ⟨D, hwrite, hkept ▸ hD⟩

def emptyEnvironment : Environment where
  getenv _ := []
  parseDuration _ := none
  floats := ⟨fun _ => .error .invalid, fun _ => .error .invalid⟩
  toFloat32 _ := 0
  inflate _ _ := .error ("open compressed symbol stream", "zlib: invalid header")
  sha256 _ := []
  goos := ascii "linux"
  version := ascii "0.1.0-dev"
  commit := ascii "none"
  buildDate := ascii "unknown"
  rules := []
  skills := []
  elapsed := 3
  offline _ _ := .error (.command (usageError (text "unknown command") ""))

def dataOptions : GlobalOptions :=
  { endpoint := defaultEndpoint, timeout := 30000000000, fields := [ascii "data"] }

def readData (v : UInt64) : Json Number :=
  .object [(ascii "format", jsonString (ascii "typed")), (ascii "data", .leaf (.number (.uint64 v)))]

def readDocument (v : UInt64) : Json Decimal :=
  successEnvelope emptyEnvironment (ascii "memory read") ((readData v).map Number.literal)
    ((successMeta emptyEnvironment { dataOptions with fields := [] } (ascii "memory read")
      ⟨readData v, []⟩ []).map Number.literal)

theorem writeSuccess_readData (v : UInt64) :
    writeSuccess emptyEnvironment { dataOptions with fields := [] } (ascii "memory read")
      ⟨readData v, []⟩ = .ok (.document (readDocument v)) :=
  (writeSuccess_plain_iff rfl).2 ⟨rfl, rfl, rfl, rfl, rfl⟩

theorem fieldsKeepNumbers_small :
    (∃ D, writeSuccess emptyEnvironment dataOptions (ascii "memory read") ⟨readData 42, []⟩ =
        .ok (.document D) ∧
      D.get (ascii "data" :: (segments (ascii "data") ++ [])) =
        (readDocument 42).get (ascii "data" :: (segments (ascii "data") ++ []))) ↔
    ∀ n ∈ (Leaf.number (Number.uint64 42)).numbers, n.Kept :=
  fieldsKeepNumbers emptyEnvironment dataOptions (ascii "memory read") ⟨readData 42, []⟩
    (readDocument 42) (ascii "data") [] (.number (.uint64 42)) (writeSuccess_readData 42)
    List.mem_cons_self rfl

/-- 2^53 + 1 is printed as 2^53. -/
theorem fieldsKeepNumbers_large :
    ¬ ∃ D, writeSuccess emptyEnvironment dataOptions (ascii "memory read")
        ⟨readData 9007199254740993, []⟩ = .ok (.document D) ∧
      D.get (ascii "data" :: (segments (ascii "data") ++ [])) =
        (readDocument 9007199254740993).get (ascii "data" :: (segments (ascii "data") ++ [])) := by
  rintro ⟨D', hwrite', hD'⟩
  have hfield : ascii "data" ∈ dataOptions.fields := List.mem_cons_self
  have hleaf : (readData 9007199254740993).get (segments (ascii "data") ++ []) =
      some (.leaf (.number (.uint64 9007199254740993))) := rfl
  obtain ⟨D, hwrite, hD, hD₀, hfinite⟩ :=
    writeSuccess_selected (writeSuccess_readData 9007199254740993) hfield hleaf
  obtain rfl := Output.document.inj (Except.ok.inj (hwrite'.symm.trans hwrite))
  rw [hD, hD₀] at hD'
  have hkept := (reprint_leaf_iff hfinite).1 (Json.leaf.inj (Option.some.inj hD'))
  exact not_kept_two_pow_53_succ (hkept _ List.mem_cons_self)

end CheatEngine.Cli
