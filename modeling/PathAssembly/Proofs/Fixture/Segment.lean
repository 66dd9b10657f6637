import PathAssembly.Proofs.Fixture.StaticInfo
import PathAssembly.Proofs.IsdAs.Notation

/-!
# Segments in fixtures

An entry is written with all its numbers and without a link size of zero, and is read back; so are
the entries of a segment and the segment. What is read is marked with the record from which it was
read.
-/

namespace PathAssembly

theorem unsigned_natCast {bits n : Nat} (name : String) (h : n < Nat.pow 2 bits) :
    unsigned name bits (n : Int) = .ok n := by
  rw [unsigned, if_neg (by omega), Int.toNat_natCast]

theorem HopField.ofValues_toNat (hop : HopField) :
    ofValues hop.ingress.toNat hop.egress.toNat hop.mac.octets hop.expiry.toNat = .ok hop := by
  have hmac : Mac.ofOctets hop.mac.octets = .ok hop.mac := dif_pos hop.mac.length_eq
  rw [ofValues, unsigned_natCast _ hop.ingress.toNat_lt, Outcome.ok_bind,
    unsigned_natCast _ hop.egress.toNat_lt, Outcome.ok_bind,
    unsigned_natCast _ hop.expiry.toNat_lt, Outcome.ok_bind, hmac, Outcome.ok_bind,
    UInt16.ofNat_toNat, UInt16.ofNat_toNat, UInt8.ofNat_toNat]
  rfl

theorem Value.asIsdAs_text (s : String) : (text s).asIsdAs = IsdAs.parse s := rfl

theorem Value.asIsdAs_render {a : IsdAs} (h : a.InRange) : (text a.render).asIsdAs = .ok a := by
  rw [asIsdAs_text, IsdAs.parse_render h]

theorem Value.asMac_toHex (mac : Mac) :
    (text (Octets.toHex mac.octets)).asMac = .ok mac.octets := by
  have hread : (Text.chars? (Text.points (Octets.toHex mac.octets))).bind Octets.ofHex?
      = some mac.octets := by
    rw [Text.points, Text.chars?_map_char, Option.bind_some, Octets.toHex, String.toList_ofList,
      Octets.ofHex?_flatMap_hexPair]
  rw [text, Scalar.ofString, asMac, hread]
  exact if_pos mac.length_eq

namespace AsEntry

def fields (entry : AsEntry) : List (String × Value) :=
  [("isd_as", .text entry.isdAs.render),
    ("ingress", .int entry.hop.ingress.toNat),
    ("egress", .int entry.hop.egress.toNat),
    ("mac", .text (Octets.toHex entry.hop.mac.octets)),
    ("expiry", .int entry.hop.expiry.toNat),
    ("mtu", .int entry.mtu.toNat)]
  ++ (if entry.ingressMtu = 0 then [] else [("ingress_mtu", .int entry.ingressMtu.toNat)])
  ++ match entry.staticInfo with
    | some info => [("static_info", info.write)]
    | none => []

theorem write_eq (entry : AsEntry) : entry.write = .record entry.fields := rfl

variable (entry : AsEntry)

theorem mem_keys_of_mem_fields : ∀ f ∈ entry.fields, f.1 ∈ keys := by
  unfold fields keys
  split <;> split <;> simp

theorem lookup_ingressMtu : entry.fields.lookup "ingress_mtu" =
    if entry.ingressMtu = 0 then none else some (.int entry.ingressMtu.toNat) := by
  unfold fields
  split <;> split <;> rfl

theorem lookup_staticInfo :
    entry.fields.lookup "static_info" = entry.staticInfo.map StaticInfo.write := by
  unfold fields
  cases entry.staticInfo <;> split <;> rfl

theorem readStaticInfo_write : readStaticInfo entry.write = .ok entry.staticInfo := by
  rw [readStaticInfo, write_eq, Value.field_record, lookup_staticInfo]
  cases entry.staticInfo with
  | none => rfl
  | some info =>
      change (StaticInfo.read info.write >>= fun info => pure (some info)) = _
      rw [StaticInfo.read_write]
      rfl

theorem ingressMtu_write : entry.write.integerField "ingress_mtu" 0
    = .ok entry.ingressMtu.toNat := by
  have hlookup := entry.lookup_ingressMtu
  rw [write_eq]
  split at hlookup
  next hzero =>
    rw [Value.integerField_record_of_none hlookup, hzero]
    rfl
  next => exact Value.integerField_record hlookup 0

theorem ofValues_toNat : ofValues entry.isdAs entry.hop entry.mtu.toNat entry.ingressMtu.toNat
    entry.staticInfo = .ok entry := by
  rw [ofValues, dif_pos entry.isdAs_inRange, unsigned_natCast _ entry.mtu.toNat_lt,
    Outcome.ok_bind, unsigned_natCast _ entry.ingressMtu.toNat_lt, Outcome.ok_bind,
    UInt16.ofNat_toNat, UInt16.ofNat_toNat]
  rfl

theorem read_write : read entry.write = .ok entry := by
  have hisdAs : entry.write.field "isd_as" = .ok (.text entry.isdAs.render) :=
    Value.field_record
  have hhasIsdAs : entry.write.has "isd_as" = .ok true := Value.has_record
  have hhasMac : entry.write.has "mac" = .ok true := Value.has_record
  have hmac : entry.write.field "mac" = .ok (.text (Octets.toHex entry.hop.mac.octets)) :=
    Value.field_record
  have hingress : entry.write.integerField "ingress" 0 = .ok entry.hop.ingress.toNat :=
    Value.integerField_record rfl 0
  have hegress : entry.write.integerField "egress" 0 = .ok entry.hop.egress.toNat :=
    Value.integerField_record rfl 0
  have hexpiry : entry.write.integerField "expiry" defaultExpiry = .ok entry.hop.expiry.toNat :=
    Value.integerField_record rfl _
  have hmtu : entry.write.integerField "mtu" Topology.defaultMtu = .ok entry.mtu.toNat :=
    Value.integerField_record rfl _
  have hkeys : entry.write.checkKeys "AS entry" keys = .ok () :=
    Value.checkKeys_record entry.mem_keys_of_mem_fields
  simp only [read, hkeys, Outcome.ok_bind, hhasIsdAs, hhasMac, hingress, hegress, hmac, hexpiry,
    Value.asMac_toHex, HopField.ofValues_toNat, readStaticInfo_write, hisdAs,
    Value.asIsdAs_render entry.isdAs_inRange, hmtu, ingressMtu_write, ofValues_toNat]
  rfl

end AsEntry

theorem SegmentInfo.ofValues_toNat (info : SegmentInfo) :
    ofValues info.segId.toNat info.timestamp.toNat info.constructionDirection = .ok info := by
  rw [ofValues, unsigned_natCast _ info.segId.toNat_lt, Outcome.ok_bind,
    unsigned_natCast _ info.timestamp.toNat_lt, Outcome.ok_bind, UInt16.ofNat_toNat,
    UInt32.ofNat_toNat]
  rfl

namespace PathSegment

variable {μ ν : Type} (s : PathSegment μ) {more : List (String × Value)}

def withMark (mark : ν) : PathSegment ν := ⟨s.entries, s.entries_ne_nil, s.info, s.type, mark⟩

def fields : List (String × Value) :=
  [("type", .text s.type.label),
    ("seg_id", .int s.info.segId.toNat),
    ("timestamp", .int s.info.timestamp.toNat)]
  ++ (if s.info.constructionDirection then [] else [("construction_direction", .bool false)])
  ++ [("entries", .list (s.entries.map AsEntry.write))]

theorem write_eq : s.write = .record s.fields := rfl

theorem mem_keys_of_mem_fields : ∀ f ∈ s.fields, f.1 ∈ keys := by
  unfold fields keys
  split <;> simp

theorem lookup_entries :
    s.fields.lookup "entries" = some (.list (s.entries.map AsEntry.write)) := by
  unfold fields
  split <;> rfl

theorem lookup_constructionDirection : s.fields.lookup "construction_direction"
    = if s.info.constructionDirection then none else some (.bool false) := by
  unfold fields
  split <;> rfl

theorem readType_label (type : SegmentType) : readType (.text type.label) = .ok type := by
  have htruth : (Value.text type.label).truth = true := by cases type <;> rfl
  unfold readType
  rw [if_pos htruth]
  change SegmentType.ofText (Text.joined (Text.points type.label)) = _
  rw [Text.joined_points, SegmentType.ofText_label]

/-- What is written beside a segment does not hide its fields. -/
theorem lookup_fields_append (hmore : ∀ f ∈ more, f.1 = "query") {key : String}
    (hkey : key ≠ "query") : (s.fields ++ more).lookup key = s.fields.lookup key := by
  have hnone : more.lookup key = none := by
    rw [List.lookup_eq_none_iff]
    intro f hf
    rw [bne_iff_ne, hmore f hf]
    exact hkey
  rw [List.lookup_append, hnone, Option.or_none]

/-- A segment is read back, with or without a query beside it. -/
theorem read_record (hmore : ∀ f ∈ more, f.1 = "query") :
    read (.record (s.fields ++ more)) = .ok (s.withMark (.record (s.fields ++ more))) := by
  have hlookup {key : String} (hkey : key ≠ "query") := s.lookup_fields_append hmore hkey
  have hkeys : (Value.record (s.fields ++ more)).checkKeys "segment" keys = .ok () := by
    apply Value.checkKeys_record
    intro f hf
    rcases List.mem_append.1 hf with hf | hf
    · exact s.mem_keys_of_mem_fields f hf
    · rw [hmore f hf]
      decide
  have hentries : (Value.record (s.fields ++ more)).field "entries"
      = .ok (.list (s.entries.map AsEntry.write)) := by
    rw [Value.field_record, hlookup (by decide), lookup_entries]
    rfl
  have htype : (Value.record (s.fields ++ more)).field "type" = .ok (.text s.type.label) :=
    Value.field_record
  have hsegId : (Value.record (s.fields ++ more)).integerField "seg_id" 0
      = .ok s.info.segId.toNat := Value.integerField_record rfl 0
  have htimestamp : (Value.record (s.fields ++ more)).integerField "timestamp" 0
      = .ok s.info.timestamp.toNat := Value.integerField_record rfl 0
  have hdirection : (Value.record (s.fields ++ more)).truthField "construction_direction" true
      = .ok s.info.constructionDirection := by
    rw [Value.truthField, Value.field?_record, hlookup (by decide), lookup_constructionDirection]
    cases s.info.constructionDirection <;> rfl
  have hentry : (s.entries.map AsEntry.write).mapM AsEntry.read = .ok s.entries :=
    Outcome.mapM_map_eq_ok fun entry _ => entry.read_write
  have hsegment : ofEntries s.entries s.info s.type (Value.record (s.fields ++ more))
      = .ok (s.withMark (.record (s.fields ++ more))) := dif_neg s.entries_ne_nil
  -- the reader tells an empty list of entries from one that is not
  obtain ⟨item, rest, hitems⟩ : ∃ item rest, s.entries.map AsEntry.write = item :: rest :=
    List.exists_cons_of_ne_nil (List.map_eq_nil_iff.not.2 s.entries_ne_nil)
  rw [hitems] at hentries hentry
  rw [read, hkeys, Outcome.ok_bind, hentries, Outcome.ok_bind]
  simp only [htype, hentry, hsegId, htimestamp, hdirection, SegmentInfo.ofValues_toNat,
    readType_label, hsegment, Outcome.ok_bind]

theorem read_write : read s.write = .ok (s.withMark s.write) := by
  have hnothing : ∀ f ∈ ([] : List (String × Value)), f.1 = "query" := List.forall_mem_nil _
  have hread := s.read_record hnothing
  rwa [List.append_nil, ← write_eq] at hread

end PathSegment

end PathAssembly
