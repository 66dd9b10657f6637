import PathAssembly.Fixture.Document
import PathAssembly.Proofs.Fixture.Segment
import PathAssembly.Proofs.OrderedMap
import PathAssembly.Proofs.Segment.Window

/-!
# Documents of segments

A document that lists segments, each with the query that returns it, is read as a store that returns
to each query the segments that are listed with it, in the order of the list. The segments that are
read differ from those that were written in their marks alone.
-/

namespace PathAssembly

variable {μ : Type}

namespace SegmentStore

def addAll (store : SegmentStore μ) (listings : List (Query × PathSegment μ)) : SegmentStore μ :=
  listings.foldl (fun store (query, s) => store.add query [s]) store

theorem addAll_cons (store : SegmentStore μ) (query : Query) (s : PathSegment μ)
    (rest : List (Query × PathSegment μ)) :
    store.addAll ((query, s) :: rest) = (store.add query [s]).addAll rest := rfl

theorem size_add (store : SegmentStore μ) (query : Query) (segments : List (PathSegment μ)) :
    (store.add query segments).size = store.size + segments.length := by
  -- the answers to other queries are the same before and after
  obtain ⟨rest, hbefore, _, hafter⟩ := store.answers.exists_rest query
  have hsize : store.size = ((store.answers.get? query).getD [] ++ rest).length :=
    hbefore.length_eq
  have hsize' : (store.add query segments).size
      = (((store.answers.get? query).getD [] ++ segments) ++ rest).length := (hafter _).length_eq
  rw [List.length_append] at hsize
  rw [List.length_append, List.length_append] at hsize'
  omega

theorem size_addAll (store : SegmentStore μ) (listings : List (Query × PathSegment μ)) :
    (store.addAll listings).size = store.size + listings.length := by
  induction listings generalizing store with
  | nil => rfl
  | cons listing rest ih =>
      rw [addAll_cons, ih, size_add, List.length_singleton, List.length_cons, Nat.add_assoc,
        Nat.add_comm 1]

/-- A query finds what is added for it, behind what was there, in the order of adding. -/
theorem find_addAll (store : SegmentStore μ) (listings : List (Query × PathSegment μ))
    (query : Query) : (store.addAll listings).find query
      = store.find query ++ (listings.filter (·.1 = query)).map Prod.snd := by
  induction listings generalizing store with
  | nil => exact (List.append_nil _).symm
  | cons listing rest ih =>
      obtain ⟨other, s⟩ := listing
      rw [addAll_cons, ih, find_add]
      by_cases hquery : other = query
      · subst hquery
        rw [if_pos rfl, List.filter_cons_of_pos (by simp), List.map_cons,
          List.append_assoc, List.singleton_append]
      · rw [if_neg hquery, List.filter_cons_of_neg (by simpa using hquery)]

end SegmentStore

namespace Value

def withField (v : Value) (key : String) (value : Value) : Value :=
  match v with
  | map pairs => map (insertKey (.ofString key) value pairs)
  | v => v

theorem withField_record {fields : List (String × Value)} {key : String} {value : Value}
    (h : fields.lookup key = none) :
    (record fields).withField key value = record (fields ++ [(key, value)]) := by
  have hinsert : insertKey (.ofString key) value (fields.map fun f => (.ofString f.1, f.2))
      = (fields ++ [(key, value)]).map fun f => (.ofString f.1, f.2) := by
    induction fields with
    | nil => rfl
    | cons f rest ih =>
        obtain ⟨hkey, hrest⟩ := List.forall_mem_cons.1 (List.lookup_eq_none_iff.1 h)
        have hother : (Scalar.ofString f.1).sameKey (.ofString key) = false := by
          rw [Scalar.sameKey_ofString, beq_eq_false_iff_ne]
          exact (bne_iff_ne.1 hkey).symm
        rw [List.map_cons, insertKey, if_neg (by rw [hother]; decide),
          ih (List.lookup_eq_none_iff.2 hrest), List.cons_append, List.map_cons]
  exact congrArg map hinsert

end Value

structure Query.InRange (query : Query) : Prop where
  source : query.source.InRange
  destination : query.destination.InRange

namespace PathSegment

def writeWithQuery (s : PathSegment μ) (query : Query) : Except Fault Value := do
  let source ← query.source.format
  let destination ← query.destination.format
  return s.write.withField "query" (.list [.text source, .text destination])

def fieldsWithQuery (s : PathSegment μ) (query : Query) : List (String × Value) :=
  s.fields ++
    [("query", .list [.text query.source.render, .text query.destination.render])]

variable (s : PathSegment μ) {query : Query}

theorem lookup_query : s.fields.lookup "query" = none := by
  unfold fields
  split <;> rfl

theorem writeWithQuery_eq_ok (h : query.InRange) :
    s.writeWithQuery query = .ok (.record (s.fieldsWithQuery query)) := by
  rw [writeWithQuery, IsdAs.format_eq_ok h.source, Outcome.ok_bind,
    IsdAs.format_eq_ok h.destination, Outcome.ok_bind, write_eq,
    Value.withField_record s.lookup_query]
  rfl

theorem readSegment_fieldsWithQuery (h : query.InRange) :
    Fixture.readSegment (.record (s.fieldsWithQuery query))
      = .ok (query, s.withMark (.record (s.fieldsWithQuery query))) := by
  have hquery : (Value.record (s.fieldsWithQuery query)).field "query"
      = .ok (.list [.text query.source.render, .text query.destination.render]) := by
    rw [Value.field_record, fieldsWithQuery, List.lookup_append, s.lookup_query]
    rfl
  have hread : read (.record (s.fieldsWithQuery query))
      = .ok (s.withMark (.record (s.fieldsWithQuery query))) := by
    apply s.read_record
    intro f hf
    rw [List.mem_singleton.1 hf]
  -- the reader only asks whether this is a mapping
  obtain ⟨pairs, hpairs⟩ : ∃ pairs, Value.record (s.fieldsWithQuery query) = .map pairs := ⟨_, rfl⟩
  rw [hpairs] at hquery hread ⊢
  simp only [Fixture.readSegment, hquery, hread, Value.asIsdAs_render h.source,
    Value.asIsdAs_render h.destination, Outcome.ok_bind]
  rfl

end PathSegment

namespace Fixture

def write (listings : List (Query × PathSegment μ)) : Except Fault Value := do
  let items ← listings.mapM fun (query, s) => s.writeWithQuery query
  return .record [("segments", .list items)]

def ofListings (listings : List (Query × PathSegment μ)) : Value :=
  .record [("segments", .list (listings.map fun l => .record (l.2.fieldsWithQuery l.1)))]

def readListing (listing : Query × PathSegment μ) : Query × PathSegment Value :=
  (listing.1, listing.2.withMark (.record (listing.2.fieldsWithQuery listing.1)))

variable {listings : List (Query × PathSegment μ)}

theorem write_eq_ok (h : ∀ l ∈ listings, l.1.InRange) :
    write listings = .ok (ofListings listings) := by
  have hitems : (listings.mapM fun l => l.2.writeWithQuery l.1)
      = .ok (listings.map fun l => .record (l.2.fieldsWithQuery l.1)) :=
    Outcome.mapM_eq_ok_map fun l hl => l.2.writeWithQuery_eq_ok (h l hl)
  rw [write, hitems]
  rfl

/-- The document is read as a store without a local AS. -/
theorem read_ofListings (h : ∀ l ∈ listings, l.1.InRange) :
    read (ofListings listings) = .ok ⟨none, SegmentStore.addAll {} (listings.map readListing)⟩ := by
  have hkeys : (ofListings listings).checkKeys "fixture" keys = .ok () := by
    apply Value.checkKeys_record
    intro f hf
    rw [List.mem_singleton.1 hf, keys]
    exact List.mem_cons_of_mem _ List.mem_cons_self
  have htopology : readTopology (ofListings listings) = .ok none := by
    rw [readTopology, ofListings, Value.field_record]
    rfl
  have hrecords : segmentRecords (ofListings listings)
      = .ok (listings.map fun l => .record (l.2.fieldsWithQuery l.1)) := by
    rw [segmentRecords, ofListings, Value.field_record]
    rfl
  have hsegments : ((listings.map fun l => .record (l.2.fieldsWithQuery l.1)).mapM readSegment)
      = .ok (listings.map readListing) := by
    rw [List.mapM_map]
    exact Outcome.mapM_eq_ok_map fun l hl => l.2.readSegment_fieldsWithQuery (h l hl)
  obtain ⟨pairs, hpairs⟩ : ∃ pairs, ofListings listings = .map pairs := ⟨_, rfl⟩
  rw [hpairs] at hkeys htopology hrecords ⊢
  simp only [read, pure_bind, hkeys, htopology, hrecords, hsegments, Outcome.ok_bind]
  rfl

/-- Of the listed segments of a query only the marks change. -/
theorem map_snd_filter_readListing (query : Query) :
    (((listings.map readListing).filter (·.1 = query)).map Prod.snd).map (·.withMark ())
      = (listings.filter (·.1 = query)).map (·.2.withMark ()) := by
  rw [List.filter_map, List.map_map, List.map_map]
  rfl

/-- A segment is written and read back. A list of segments, each with a query, is written as a
document and read as a store of as many segments, which gives to every query the segments that are
listed with it, in the order of the list. A mark is no part of a segment. -/
theorem segments_read_back :
    (∀ s : PathSegment μ, PathSegment.read s.write = .ok (s.withMark s.write)) ∧
    ∀ listings : List (Query × PathSegment μ), (∀ l ∈ listings, l.1.InRange) →
      ∃ document fixture, write listings = .ok document ∧ read document = .ok fixture ∧
        fixture.store.size = listings.length ∧
        ∀ query, (fixture.store.find query).map (·.withMark ())
          = (listings.filter (·.1 = query)).map (·.2.withMark ()) := by
  refine ⟨PathSegment.read_write, fun listings h =>
    ⟨ofListings listings, ⟨none, SegmentStore.addAll {} (listings.map readListing)⟩,
      write_eq_ok h, read_ofListings h, ?_, fun query => ?_⟩⟩
  · rw [SegmentStore.size_addAll, List.length_map]
    exact Nat.zero_add _
  · rw [SegmentStore.find_addAll, ← map_snd_filter_readListing]
    rfl

def leafQuery : Query := ⟨.plain 1 111, .plain 1 0⟩

def coreQuery : Query := ⟨.plain 1 0, .plain 1 111⟩

theorem leafQuery_inRange : leafQuery.InRange :=
  ⟨IsdAs.plain_inRange 1 111, IsdAs.plain_inRange 1 0⟩

theorem coreQuery_inRange : coreQuery.InRange :=
  ⟨IsdAs.plain_inRange 1 0, IsdAs.plain_inRange 1 111⟩

def describedSegment : PathSegment Unit where
  entries := [{ AsEntry.plain 1 110 0 1 with
      staticInfo := some { linkType := .ofList [(1, .openNet)], note := "roof" } },
    { AsEntry.plain 1 111 2 0 with ingressMtu := 1400 }]
  entries_ne_nil := List.cons_ne_nil _ _
  info := ⟨7, 60, false⟩
  type := .up
  mark := ()

def downSegment : PathSegment Unit := .plain .down (.plain 1 110 0 1) [.plain 1 111 2 0]

theorem segments_read_back_three :
    PathSegment.read describedSegment.write
        = .ok (describedSegment.withMark describedSegment.write) ∧
      ∃ document fixture,
        write [(leafQuery, describedSegment), (coreQuery, downSegment), (leafQuery, downSegment)]
          = .ok document ∧ read document = .ok fixture ∧ fixture.store.size = 3 ∧
        (fixture.store.find leafQuery).map (·.withMark ()) = [describedSegment, downSegment] ∧
        (fixture.store.find coreQuery).map (·.withMark ()) = [downSegment] := by
  have hlistings : ∀ l ∈ [(leafQuery, describedSegment), (coreQuery, downSegment),
      (leafQuery, downSegment)], l.1.InRange := by
    simp [leafQuery_inRange, coreQuery_inRange]
  obtain ⟨document, fixture, hwrite, hread, hsize, hfind⟩ := segments_read_back.2 _ hlistings
  exact ⟨segments_read_back.1 describedSegment, document, fixture, hwrite, hread, hsize,
    hfind leafQuery, hfind coreQuery⟩

end Fixture

end PathAssembly
