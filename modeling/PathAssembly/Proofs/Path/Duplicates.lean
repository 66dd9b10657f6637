import Mathlib.Data.List.MinMax
import PathAssembly.Proofs.Header.Acceptance
import PathAssembly.Proofs.Path.Distinct

/-!
# One path for all links

Of paths that cross the same links the one that lasts longest is kept, the first of them if there
are several, and the kept paths stand in the order in which their links first came. `distinct` says
so in one line, without buckets, hashes or places. The paths that are kept are those of `distinct`
for any hash, after any number of offers (`ofList_eq_distinct`); an offer is refused only if the
header of its path is unreadable, and then changes nothing.
-/

namespace PathAssembly

namespace PathHeader

variable {p : PathHeader} {raw : List UInt8}

theorem segmentCount_le (lengths : List Int) : segmentCount lengths ≤ lengths.length :=
  List.countP_le_length

/-- The links of a header that was read can be told. -/
theorem exists_crossings_of_decode (h : decode raw = .ok p) : ∃ links, p.crossings = .ok links := by
  obtain ⟨_, _, _, hp⟩ := decode_eq_ok_iff.1 h
  have hslots : p.infos.length ≤ p.lengths.length := by
    rw [← hp]
    change (Octets.readRow ..).length ≤ p.lengths.length
    rw [Octets.readRow, List.length_map, List.length_range]
    exact segmentCount_le p.lengths
  have hslot : ∀ entry ∈ p.infos.zipIdx, ∃ links, (do
      return hopCrossings entry.1.constructionDirection (← p.segmentHops entry.2)) = Except.ok links
        ∧ True := by
    intro entry hentry
    have hlt : entry.2 < p.lengths.length :=
      Nat.lt_of_lt_of_le (List.snd_lt_of_mem_zipIdx hentry) (by omega)
    rw [segmentHops, List.getElem?_eq_getElem hlt]
    exact ⟨_, rfl, trivial⟩
  obtain ⟨links, hlinks, _⟩ := Outcome.exists_mapM_eq_ok hslot
  exact ⟨links.flatten, Outcome.bind_eq_ok_iff.2 ⟨links, hlinks, rfl⟩⟩

end PathHeader

namespace BuiltPath

variable {μ : Type} {path : BuiltPath μ}

def isReadable (path : BuiltPath μ) : Bool := (PathHeader.decode path.raw).isOk

/-- The links that a path crosses, none if its header is unreadable. -/
def links (path : BuiltPath μ) : List Crossing := (interfacePairs path.raw).toOption.getD []

theorem interfacePairs_eq_ok (h : path.isReadable = true) :
    interfacePairs path.raw = .ok path.links := by
  cases hdecode : PathHeader.decode path.raw with
  | error fault =>
      rw [isReadable, hdecode] at h
      cases h
  | ok header =>
      obtain ⟨crossed, hcrossed⟩ := PathHeader.exists_crossings_of_decode hdecode
      have hlinks : interfacePairs path.raw = .ok crossed :=
        Outcome.bind_eq_ok_iff.2 ⟨header, hdecode, hcrossed⟩
      rw [links, hlinks]
      rfl

theorem interfacePairs_eq_error (h : path.isReadable = false) :
    ∃ fault, interfacePairs path.raw = .error fault ∧ fault.kind = .invalid := by
  cases hdecode : PathHeader.decode path.raw with
  | error fault =>
      refine ⟨fault, ?_, PathHeader.kind_of_decode_eq_error hdecode⟩
      rw [interfacePairs, hdecode]
      rfl
  | ok header =>
      rw [isReadable, hdecode] at h
      cases h

/-- The first of the paths that last longest. -/
def longestLasting (paths : List (BuiltPath μ)) : Option (BuiltPath μ) :=
  paths.foldl (List.argAux fun path old => old.expiration < path.expiration) none

theorem longestLasting_concat (paths : List (BuiltPath μ)) (path : BuiltPath μ) :
    longestLasting (paths ++ [path]) = match longestLasting paths with
      | none => some path
      | some old => if old.expiration < path.expiration then some path else some old := by
  rw [longestLasting, List.foldl_concat, ← longestLasting]
  cases longestLasting paths <;> rfl

theorem mem_of_longestLasting {paths : List (BuiltPath μ)}
    (h : longestLasting paths = some path) : path ∈ paths := List.argmax_mem h

/-- Of paths that cross the same links the first that lasts longest, in the order in which their
links first come. -/
def distinct (paths : List (BuiltPath μ)) : List (BuiltPath μ) :=
  (paths.map links).eraseDups.filterMap fun key =>
    longestLasting (paths.filter fun path => path.links = key)

end BuiltPath

namespace Ledger

open BuiltPath (distinct longestLasting longestLasting_concat)

variable {μ : Type}

def ofPaths (paths : List (BuiltPath μ)) : Ledger μ :=
  recordAll .empty (paths.map fun path => (path.links, path))

theorem ofPaths_concat (paths : List (BuiltPath μ)) (path : BuiltPath μ) :
    ofPaths (paths ++ [path]) = (ofPaths paths).record path.links path := by
  rw [ofPaths, List.map_append, List.map_singleton, recordAll_concat, ofPaths]

/-- Under some links stands the first of their paths that lasts longest. -/
theorem get?_ofPaths (paths : List (BuiltPath μ)) (key : List Crossing) :
    (ofPaths paths).get? key = longestLasting (paths.filter fun path => path.links = key) := by
  induction paths using List.reverseRecOn with
  | nil => rfl
  | append_singleton paths path ih =>
      rw [ofPaths_concat, List.filter_append]
      by_cases hkey : path.links = key
      · subst hkey
        rw [List.filter_cons_of_pos (by simp), List.filter_nil, longestLasting_concat, ← ih]
        cases hget : (ofPaths paths).get? path.links with
        | none => exact get?_record_of_get?_eq_none hget
        | some old => exact get?_record_of_get?_eq_some hget
      · rw [get?_record_of_ne hkey, ih,
          List.filter_cons_of_neg (by simpa using hkey), List.filter_nil, List.append_nil]

theorem keys_ofPaths (paths : List (BuiltPath μ)) :
    (ofPaths paths).keys = (paths.map (·.links)).eraseDups := by
  induction paths using List.reverseRecOn with
  | nil => rfl
  | append_singleton paths path ih =>
      have hmem : path.links ∈ (ofPaths paths).keys ↔ path.links ∈ paths.map (·.links) := by
        rw [ih, List.mem_eraseDups]
      rw [ofPaths_concat, List.map_append, List.map_singleton, List.eraseDups_append, ← ih]
      cases hget : (ofPaths paths).get? path.links with
      | none =>
          have hnew := OrderedMap.get?_eq_none_iff.1 hget
          rw [keys_record_of_get?_eq_none hget]
          have hkeep : [path.links].removeAll (paths.map (·.links)) = [path.links] :=
            List.filter_cons_of_pos (by simpa using mt hmem.2 hnew)
          rw [hkeep]
          rfl
      | some old =>
          have hold : path.links ∈ (ofPaths paths).keys := by
            by_contra hnone
            rw [OrderedMap.get?_eq_none_iff.2 hnone] at hget
            cases hget
          rw [keys_record_of_get?_eq_some hget]
          have hdrop : [path.links].removeAll (paths.map (·.links)) = [] :=
            List.filter_cons_of_neg (by simpa using hmem.1 hold)
          rw [hdrop, List.eraseDups_nil, List.append_nil]

theorem values_ofPaths (paths : List (BuiltPath μ)) : (ofPaths paths).values = distinct paths := by
  rw [OrderedMap.values_eq_filterMap, keys_ofPaths, distinct]
  exact List.filterMap_congr fun key _ => get?_ofPaths paths key

theorem mem_of_get?_ofPaths {paths : List (BuiltPath μ)} {key : List Crossing}
    {path : BuiltPath μ} (h : (ofPaths paths).get? key = some path) :
    path ∈ paths ∧ path.links = key := by
  rw [get?_ofPaths] at h
  have hmem := List.mem_filter.1 (BuiltPath.mem_of_longestLasting h)
  exact ⟨hmem.1, of_decide_eq_true hmem.2⟩

theorem map_links_values (paths : List (BuiltPath μ)) :
    (ofPaths paths).values.map (·.links) = (ofPaths paths).keys := by
  rw [OrderedMap.values, OrderedMap.keys, List.map_map]
  exact List.map_congr_left fun entry hentry =>
    (mem_of_get?_ofPaths (OrderedMap.get?_eq_some_iff.2 hentry)).2

/-- Paths that cross different links are all in their ledger. -/
theorem entries_ofPaths {paths : List (BuiltPath μ)} (h : (paths.map (·.links)).Nodup) :
    (ofPaths paths).entries = paths.map fun path => (path.links, path) := by
  induction paths using List.reverseRecOn with
  | nil => rfl
  | append_singleton paths path ih =>
      rw [List.map_append, List.map_singleton, List.nodup_append] at h
      obtain ⟨hpaths, _, hnew⟩ := h
      have hentries := ih hpaths
      have hget : (ofPaths paths).get? path.links = none := by
        rw [OrderedMap.get?_eq_none_iff, OrderedMap.keys, hentries, List.map_map]
        exact fun hmem => hnew _ hmem _ List.mem_cons_self rfl
      rw [ofPaths_concat, record_of_get?_eq_none hget,
        OrderedMap.entries_insert_of_get?_eq_none hget, hentries, List.map_append,
        List.map_singleton]

end Ledger

namespace BuiltPath

variable {μ : Type} {paths : List (BuiltPath μ)} {path : BuiltPath μ}

theorem mem_of_mem_distinct (h : path ∈ distinct paths) : path ∈ paths := by
  rw [← Ledger.values_ofPaths] at h
  obtain ⟨key, hget⟩ := OrderedMap.mem_values_iff.1 h
  exact (Ledger.mem_of_get?_ofPaths hget).1

theorem distinct_distinct (paths : List (BuiltPath μ)) :
    distinct (distinct paths) = distinct paths := by
  have hlinks : ((distinct paths).map (·.links)).Nodup := by
    rw [← Ledger.values_ofPaths, Ledger.map_links_values]
    exact (Ledger.ofPaths paths).keys_nodup
  rw [← Ledger.values_ofPaths (distinct paths), OrderedMap.values, Ledger.entries_ofPaths hlinks,
    List.map_map]
  exact List.map_id _

end BuiltPath

namespace DistinctPaths

open BuiltPath (distinct longestLasting longestLasting_concat)

variable {κ μ : Type} [DecidableEq κ] {hash : List Crossing → κ} {d : DistinctPaths κ μ}
  {paths : List (BuiltPath μ)} {path : BuiltPath μ} {verdict : Verdict μ}

theorem add_eq_ok (h : path.isReadable = true) :
    d.add hash path = .ok (d.addCrossing hash path.links path) := by
  rw [add, BuiltPath.interfacePairs_eq_ok h]
  rfl

theorem add_eq_error (h : path.isReadable = false) :
    ∃ fault, d.add hash path = .error fault ∧ fault.kind = .invalid := by
  obtain ⟨fault, hlinks, hkind⟩ := BuiltPath.interfacePairs_eq_error h
  refine ⟨fault, ?_, hkind⟩
  rw [add, hlinks]
  rfl

/-- The kept paths after an offer. A refused offer changes nothing. -/
def afterAdd (hash : List Crossing → κ) (d : DistinctPaths κ μ) (path : BuiltPath μ) :
    DistinctPaths κ μ :=
  match d.add hash path with
  | .ok (next, _) => next
  | .error _ => d

/-- The kept paths after offers, whether some of them are refused or not. -/
def offerAll (hash : List Crossing → κ) (paths : List (BuiltPath μ)) : DistinctPaths κ μ :=
  paths.foldl (afterAdd hash) {}

/-- Refused offers leave no trace. -/
theorem foldlM_filter (d : DistinctPaths κ μ) (paths : List (BuiltPath μ)) :
    (paths.filter (·.isReadable)).foldlM (fun d path => do return (← d.add hash path).1) d
      = .ok (paths.foldl (afterAdd hash) d) := by
  induction paths generalizing d with
  | nil => rfl
  | cons path rest ih =>
      rw [List.foldl_cons, ← ih]
      cases hreadable : path.isReadable with
      | true =>
          rw [List.filter_cons_of_pos hreadable, List.foldlM_cons, afterAdd,
            add_eq_ok hreadable]
          rfl
      | false =>
          have hrefused : ∃ fault, d.add hash path = .error fault ∧ fault.kind = .invalid :=
            add_eq_error hreadable
          obtain ⟨fault, hadd, _⟩ := hrefused
          rw [List.filter_cons_of_neg (by rw [hreadable]; exact Bool.false_ne_true), afterAdd, hadd]

theorem ofList_concat {next : DistinctPaths κ μ} (h : ofList hash paths = .ok d)
    (hadd : d.add hash path = .ok (next, verdict)) :
    ofList hash (paths ++ [path]) = .ok next := by
  rw [ofList, List.foldlM_append]
  change (ofList hash paths >>= _) = _
  rw [h, Outcome.ok_bind, List.foldlM_cons, hadd]
  rfl

/-- Readable paths are put in buckets that hold their ledger. -/
theorem exists_ofList (hash : List Crossing → κ)
    (hreadable : ∀ path ∈ paths, path.isReadable = true) :
    ∃ d, ofList hash paths = .ok d ∧ Represents hash d (.ofPaths paths) := by
  induction paths using List.reverseRecOn with
  | nil => exact ⟨{}, rfl, represents_empty hash⟩
  | append_singleton paths path ih =>
      rw [List.forall_mem_append, List.forall_mem_singleton] at hreadable
      obtain ⟨d, hd, hrepresents⟩ := ih hreadable.1
      refine ⟨_, ofList_concat hd (add_eq_ok hreadable.2), ?_⟩
      rw [Ledger.ofPaths_concat]
      exact hrepresents.addCrossing path.links path

theorem Represents.paths_eq_distinct (h : Represents hash d (.ofPaths paths)) :
    d.paths = distinct paths := h.paths_eq.trans (Ledger.values_ofPaths paths)

theorem Represents.size_eq_length (h : Represents hash d (.ofPaths paths)) :
    d.size = (paths.map (·.links)).eraseDups.length := by
  rw [h.size_eq, ← Ledger.keys_ofPaths, OrderedMap.keys, List.length_map]

/-- An offered path is kept exactly if its links are new or the kept path with its links expires
sooner. -/
theorem Represents.isKept_iff (h : Represents hash d (.ofPaths paths)) (path : BuiltPath μ) :
    (d.addCrossing hash path.links path).2.isKept = true ↔
      path.links ∉ paths.map (·.links) ∨
        ∃ old ∈ d.paths, old.links = path.links ∧ old.expiration < path.expiration := by
  have hnew : (Ledger.ofPaths paths).get? path.links = none ↔
      path.links ∉ paths.map (·.links) := by
    rw [OrderedMap.get?_eq_none_iff, Ledger.keys_ofPaths, List.mem_eraseDups]
  rw [h.isKept_addCrossing_iff, ← hnew, h.paths_eq]
  cases hget : (Ledger.ofPaths paths).get? path.links with
  | none => exact iff_of_true (fun _ hold => absurd hold (Option.some_ne_none _).symm) (.inl rfl)
  | some old =>
      have hlinks := (Ledger.mem_of_get?_ofPaths hget).2
      constructor
      · intro hlt
        exact .inr ⟨old, OrderedMap.mem_values_iff.2 ⟨_, hget⟩, hlinks, hlt old rfl⟩
      · rintro (hnone | ⟨other, hother, hsame, hlt⟩) kept hkept
        · cases hnone
        · obtain ⟨key, hkey⟩ := OrderedMap.mem_values_iff.1 hother
          have hplace := (Ledger.mem_of_get?_ofPaths hkey).2
          rw [← hplace, hsame, hget] at hkey
          cases hkey
          cases hkept
          exact hlt

/-- Readable paths are told apart by their links, whatever the hash is: of those with the same
links the first that lasts longest is kept, in the place of the first of all. A further path is
kept exactly if its links are new or it lasts longer; an unreadable one is refused and leaves no
trace. Paths that are distinct stay as they are. -/
theorem ofList_eq_distinct (hash : List Crossing → κ)
    (hreadable : ∀ path ∈ paths, path.isReadable = true) :
    ∃ d, ofList hash paths = .ok d ∧ d.paths = distinct paths ∧
      d.size = (paths.map (·.links)).eraseDups.length ∧
      (∀ path : BuiltPath μ, path.isReadable = true → ∃ next verdict,
        d.add hash path = .ok (next, verdict) ∧ ofList hash (paths ++ [path]) = .ok next ∧
        (verdict.isKept = true ↔ path.links ∉ paths.map (·.links) ∨
          ∃ old ∈ d.paths, old.links = path.links ∧ old.expiration < path.expiration)) ∧
      (∀ path : BuiltPath μ, path.isReadable = false → ∃ fault,
        d.add hash path = .error fault ∧ fault.kind = .invalid) ∧
      (∀ offers : List (BuiltPath μ), offers.filter (·.isReadable) = paths →
        offerAll hash offers = d) ∧
      ∃ again, ofList hash d.paths = .ok again ∧ again.paths = d.paths := by
  obtain ⟨d, hd, hrepresents⟩ := exists_ofList hash hreadable
  have hpaths := hrepresents.paths_eq_distinct
  have hkept : ∀ path ∈ d.paths, path.isReadable = true := by
    intro path hpath
    rw [hpaths] at hpath
    exact hreadable path (BuiltPath.mem_of_mem_distinct hpath)
  obtain ⟨again, hagain, hagainRepresents⟩ := exists_ofList hash hkept
  refine ⟨d, hd, hpaths, hrepresents.size_eq_length, ?_, fun _ => add_eq_error, ?_, again, hagain,
    ?_⟩
  · intro path hpath
    exact ⟨_, _, add_eq_ok hpath, ofList_concat hd (add_eq_ok hpath), hrepresents.isKept_iff path⟩
  · rintro offers rfl
    exact Except.ok.inj ((foldlM_filter {} offers).symm.trans hd)
  · rw [hagainRepresents.paths_eq_distinct, hpaths, BuiltPath.distinct_distinct]

/-- A path without links, a path over the link from 5 to 6, and two more paths without links that
last longer, one as long as the other. The mark is the place. -/
def twoRoutes : List (BuiltPath Nat) :=
  [{ raw := [0, 0, 0, 0], mtu := 1472, expiration := 5, mark := 0 },
    { raw := [0, 0, 0x20, 0, 1, 0, 0, 0, 0, 0, 0, 0,
        0, 63, 0, 0, 0, 5, 1, 2, 3, 4, 5, 6, 0, 63, 0, 6, 0, 0, 1, 2, 3, 4, 5, 6]
      mtu := 1472, expiration := 1, mark := 1 },
    { raw := [0, 0, 0, 0], mtu := 1400, expiration := 7, mark := 2 },
    { raw := [0x40, 0, 0, 0], mtu := 1400, expiration := 7, mark := 3 }]

theorem ofList_eq_distinct_twoRoutes :
    (∀ path ∈ twoRoutes, path.isReadable = true) ∧
      (distinct twoRoutes).map (·.mark) = [2, 1] ∧
      ∃ d, ofList (fun _ => ()) twoRoutes = .ok d ∧ d.paths = distinct twoRoutes ∧ d.size = 2 := by
  have hreadable : ∀ path ∈ twoRoutes, path.isReadable = true := by decide +kernel
  have hsize : (twoRoutes.map (·.links)).eraseDups.length = 2 := by decide +kernel
  obtain ⟨d, hd, hpaths, hlength, _⟩ := ofList_eq_distinct (fun _ => ()) hreadable
  exact ⟨hreadable, by decide +kernel, d, hd, hpaths, hlength.trans hsize⟩

end DistinctPaths

end PathAssembly
