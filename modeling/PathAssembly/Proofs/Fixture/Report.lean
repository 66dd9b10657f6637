import PathAssembly.Proofs.Fixture.Check

/-!
# What documents are refused for

Of several faults of a document the first one in the order of reading is reported. `Reports` says so
of one reader; readers that are composed report the first fault of both. `Fixture.checks` is what is
checked of a document altogether, and `Fixture.read_by_checks` says that the document is read if
nothing fails, and refused as the first failure says. A document is not always refused as invalid:
`Fixture.read_breaksOff` has one document for each other way.
-/

namespace PathAssembly

namespace Check

def firstFault (checks : List Check) : Option Fault := checks.findSome? fault

theorem firstFault_singleton (c : Check) : firstFault [c] = c.fault := by
  unfold firstFault
  rw [List.findSome?_cons]
  cases c.fault <;> rfl

theorem firstFault_append (cs ds : List Check) :
    firstFault (cs ++ ds) = (firstFault cs).or (firstFault ds) := List.findSome?_append

end Check

/-- An outcome reports the first of several checks that fails. -/
def Reports {α : Type} (checks : List Check) (x : Except Fault α) : Prop :=
  Check.firstFault checks = Outcome.fault? x

namespace Reports

variable {α β : Type} {x : Except Fault α} {f : α → Except Fault β} {cs ds : List Check}

theorem ok (a : α) : Reports [] (Except.ok a : Except Fault α) := rfl

theorem single {c : Check} (h : c.fault = Outcome.fault? x) : Reports [c] x :=
  (Check.firstFault_singleton c).trans h

/-- What stands behind a check that fails does not count. -/
theorem stop {c : Check} {fault : Fault} (h : c.fault = some fault) (cs : List Check) :
    Reports (c :: cs) (.error fault : Except Fault α) := by
  unfold Reports Check.firstFault
  rw [List.findSome?_cons, h]
  rfl

/-- A check that does not fail does not count. -/
theorem skip {c : Check} (h : c.fault = none) (hx : Reports cs x) : Reports (c :: cs) x := by
  unfold Reports Check.firstFault at hx ⊢
  rw [List.findSome?_cons, h]
  exact hx

theorem bind (hx : Reports cs x) (hf : ∀ a, x = .ok a → Reports ds (f a)) :
    Reports (cs ++ ds) (x >>= f) := by
  unfold Reports at hx ⊢
  rw [Check.firstFault_append, hx]
  cases x with
  | error fault => rfl
  | ok a => exact hf a rfl

/-- One check, and those of what is done then. -/
theorem cons {c : Check} (h : c.fault = Outcome.fault? x) (hf : ∀ a, x = .ok a → Reports cs (f a)) :
    Reports (c :: cs) (x >>= f) := (single h).bind hf

theorem map (hx : Reports cs x) (f : α → β) : Reports cs (x >>= fun a => pure (f a)) := by
  cases x <;> exact hx

theorem mapM {f : α → Except Fault β} {checks : α → List Check} {xs : List α}
    (h : ∀ x ∈ xs, Reports (checks x) (f x)) : Reports (xs.flatMap checks) (xs.mapM f) := by
  induction xs with
  | nil => rfl
  | cons x xs ih =>
      obtain ⟨hx, hxs⟩ := List.forall_mem_cons.1 h
      rw [List.mapM_cons, List.flatMap_cons]
      exact hx.bind fun y _ => (ih hxs).map (y :: ·)

end Reports

namespace Value

def get? (v : Value) (key : String) : Option Value :=
  match v with
  | map pairs => lookup key pairs
  | _ => none

def getD (v : Value) (key : String) : Value := (v.get? key).getD null

def hasKey (v : Value) (key : String) : Bool := (v.has key).toOption.getD false

end Value

namespace Check

def ofField (check : Value → Check) (v : Value) (key : String) : List Check :=
  ((v.get? key).map check).toList

def widthOf (name : String) (bits : Nat) : Except Fault Int → List Check
  | .ok i => [width name bits i]
  | .error _ => []

/-- The value of a key is a mapping, if there is one, and passes the checks of its own. -/
def mappingAt (v : Value) (key : String) (checks : List (Scalar × Value) → List Check) :
    List Check :=
  match v.getD key with
  | .scalar .null => []
  | .map pairs => checks pairs
  | _ => [refused (.notMapping key) rfl]

/-- Keys are interfaces, and each value passes the checks of its own. -/
def byInterface (checks : Value → List Check) (pairs : List (Scalar × Value)) : List Check :=
  pairs.flatMap fun (key, value) => integer (.scalar key) :: checks value

end Check

namespace Value

variable (fields : List (Scalar × Value)) (key : String)

theorem field?_map : (map fields).field? key = .ok ((map fields).get? key) := rfl

theorem field_map : (map fields).field key = .ok ((map fields).getD key) := rfl

theorem reports_integerField (default : Int) :
    Reports (Check.ofField .integer (map fields) key) ((map fields).integerField key default) := by
  rw [integerField, Check.ofField, field?_map, Outcome.ok_bind]
  cases (map fields).get? key with
  | none => exact .ok _
  | some value => exact .single rfl

theorem reports_numberField :
    Reports (Check.ofField .number (map fields) key) ((map fields).numberField key) := by
  rw [numberField, Check.ofField, field?_map, Outcome.ok_bind]
  cases (map fields).get? key with
  | none => exact .ok _
  | some value => exact .single rfl

theorem reports_textField :
    Reports (Check.ofField .text (map fields) key) ((map fields).textField key) := by
  rw [textField, Check.ofField, field?_map, Outcome.ok_bind]
  cases (map fields).get? key with
  | none => exact .ok _
  | some value => exact .single rfl

/-- What has known keys can be asked for a member. -/
theorem has_of_checkKeys {v : Value} {kind : String} {allowed : List String}
    (h : v.checkKeys kind allowed = .ok ()) (key : String) : v.has key = .ok (v.hasKey key) := by
  obtain ⟨members, hmembers, _⟩ := Outcome.bind_eq_ok_iff.1 h
  rw [hasKey, has, hmembers]
  rfl

end Value

theorem reports_readInterfaceMap {ν : Type} {readValue : Value → Except Fault ν}
    {checks : Value → List Check} (h : ∀ v, Reports (checks v) (readValue v))
    (pairs : List (Scalar × Value)) :
    Reports (Check.byInterface checks pairs) (readInterfaceMap readValue pairs) := by
  refine Reports.map (Reports.mapM fun pair _ => ?_) _
  have hkey : Reports [.integer (.scalar pair.1)] pair.1.asInteger := .single rfl
  exact hkey.bind fun _ _ => (h pair.2).map _

namespace StaticInfo

def counterChecks (v : Value) (key : String) : List Check :=
  Check.mappingAt v key (Check.byInterface fun value => [.integer value])

def geoChecks (v : Value) : List Check :=
  match v with
  | .map _ =>
    [[.keys v "geo" geoKeys], Check.ofField .number v "latitude",
      Check.ofField .number v "longitude", Check.ofField .text v "address"].flatten
  | _ => [.refused .geoNotMapping rfl]

def checks (v : Value) : List Check :=
  .keys v "static_info" keys ::
    match (v.getD "geo").optionalPairs?, (v.getD "link_type").optionalPairs? with
    | some geo, some linkType =>
      [counterChecks v "latency_inter", counterChecks v "latency_intra",
        counterChecks v "bandwidth_inter", counterChecks v "bandwidth_intra",
        counterChecks v "internal_hops", Check.byInterface geoChecks geo,
        Check.byInterface (fun value => [.linkType value]) linkType,
        Check.ofField .text v "note"].flatten
    | _, _ => [.refused .geoOrLinkNotMapping rfl]

theorem reports_readCounters (fields : List (Scalar × Value)) (key : String) :
    Reports (counterChecks (.map fields) key) (readCounters (.map fields) key) := by
  rw [counterChecks, Check.mappingAt, readCounters, Value.field_map, Outcome.ok_bind]
  cases (Value.map fields).getD key with
  | map pairs => exact reports_readInterfaceMap (fun _ => .single rfl) pairs
  | list => exact .stop rfl _
  | scalar s =>
      cases s with
      | null => exact .ok _
      | _ => exact .stop rfl _

theorem reports_readGeo (v : Value) : Reports (geoChecks v) (readGeo v) := by
  cases v with
  | scalar | list => exact .stop rfl _
  | map fields =>
      refine Reports.cons rfl fun _ _ => ?_
      refine (Value.reports_numberField fields "latitude").bind fun _ _ => ?_
      refine (Value.reports_numberField fields "longitude").bind fun _ _ => ?_
      exact (Value.reports_textField fields "address").bind fun _ _ => .ok _

theorem reports_read (fields : List (Scalar × Value)) :
    Reports (checks (.map fields)) (read (.map fields)) := by
  refine Reports.cons rfl fun _ _ => ?_
  rw [Value.field_map, Value.field_map, Outcome.ok_bind, Outcome.ok_bind]
  cases ((Value.map fields).getD "geo").optionalPairs? with
  | none => exact .stop rfl _
  | some geo =>
      cases ((Value.map fields).getD "link_type").optionalPairs? with
      | none => exact .stop rfl _
      | some linkType =>
          refine (reports_readCounters fields _).bind fun _ _ => ?_
          refine (reports_readCounters fields _).bind fun _ _ => ?_
          refine (reports_readCounters fields _).bind fun _ _ => ?_
          refine (reports_readCounters fields _).bind fun _ _ => ?_
          refine (reports_readCounters fields _).bind fun _ _ => ?_
          refine (reports_readInterfaceMap reports_readGeo geo).bind fun _ _ => ?_
          refine (reports_readInterfaceMap (fun _ => .single rfl) linkType).bind fun _ _ => ?_
          exact (Value.reports_textField fields "note").bind fun _ _ => .ok _

end StaticInfo

theorem Value.length_of_asMac {v : Value} {octets : List UInt8} (h : v.asMac = .ok octets) :
    octets.length = macLength := by
  unfold asMac at h
  split at h
  · split at h
    · cases h
    · split_ifs at h with hlength
      rw [← Except.ok.inj h]
      exact hlength
  · obtain ⟨_, _, h⟩ := Outcome.bind_eq_ok_iff.1 h
    cases h

theorem HopField.reports_ofValues (ingress egress expiry : Int) {mac : List UInt8}
    (h : mac.length = macLength) :
    Reports [.width "ingress" 16 ingress, .width "egress" 16 egress,
      .width "expiry_delta" 8 expiry] (ofValues ingress egress mac expiry) := by
  refine .cons rfl fun _ _ => .cons rfl fun _ _ => .cons rfl fun _ _ => ?_
  rw [Mac.ofOctets, dif_pos h]
  exact .ok _

theorem AsEntry.reports_ofValues (isdAs : IsdAs) (hop : HopField) (mtu ingressMtu : Int)
    (staticInfo : Option StaticInfo) :
    Reports [.width "isd_as" 64 isdAs.value, .width "mtu" 16 mtu,
      .width "ingress_mtu" 16 ingressMtu] (ofValues isdAs hop mtu ingressMtu staticInfo) := by
  -- an identifier in range is one of 64 bits
  have hwidth : isdAs.InRange ↔ ¬ (isdAs.value < 0 ∨ Nat.pow 2 64 ≤ isdAs.value) := by
    have hlimit : ((Nat.pow 2 64 : Nat) : Int) = 0x1_0000_0000_0000_0000 := rfl
    rw [IsdAs.InRange, hlimit]
    omega
  unfold ofValues
  by_cases hinRange : isdAs.InRange
  · rw [dif_pos hinRange]
    have hfits : (Check.width "isd_as" 64 isdAs.value).fault = none :=
      congrArg Outcome.fault? (if_neg (hwidth.1 hinRange))
    exact .skip hfits (.cons rfl fun _ _ => .cons rfl fun _ _ => .ok _)
  · rw [dif_neg hinRange]
    have hfails : (Check.width "isd_as" 64 isdAs.value).fault
        = some (.unsignedTooWide "isd_as" 64 isdAs.value) :=
      congrArg Outcome.fault? (if_pos (not_not.1 (hwidth.not.1 hinRange)))
    exact .stop hfails _

namespace AsEntry

def fieldChecks (v : Value) : List Check :=
  [Check.ofField .integer v "ingress", Check.ofField .integer v "egress", [.mac (v.getD "mac")],
    Check.ofField .integer v "expiry",
    [Check.widthOf "ingress" 16 (v.integerField "ingress" 0),
      Check.widthOf "egress" 16 (v.integerField "egress" 0),
      Check.widthOf "expiry_delta" 8 (v.integerField "expiry" defaultExpiry)].flatten,
    Check.mappingAt v "static_info" fun fields => StaticInfo.checks (.map fields),
    [.identifier (v.getD "isd_as")], Check.ofField .integer v "mtu",
    Check.ofField .integer v "ingress_mtu",
    [Check.widthOf "isd_as" 64 ((v.getD "isd_as").asIsdAs.map (·.value)),
      Check.widthOf "mtu" 16 (v.integerField "mtu" Topology.defaultMtu),
      Check.widthOf "ingress_mtu" 16 (v.integerField "ingress_mtu" 0)].flatten].flatten

def checks (v : Value) : List Check :=
  .keys v "AS entry" keys ::
    if v.hasKey "isd_as" && v.hasKey "mac" then .fields v :: fieldChecks v
    else [.refused .entryIncomplete rfl]

theorem reports_readStaticInfo (fields : List (Scalar × Value)) :
    Reports (Check.mappingAt (.map fields) "static_info" fun fields =>
      StaticInfo.checks (.map fields)) (readStaticInfo (.map fields)) := by
  rw [Check.mappingAt, readStaticInfo, Value.field_map, Outcome.ok_bind]
  cases (Value.map fields).getD "static_info" with
  | map pairs => exact (StaticInfo.reports_read pairs).map _
  | list => exact .stop rfl _
  | scalar s =>
      cases s with
      | null => exact .ok _
      | _ => exact .stop rfl _

theorem reports_read (v : Value) : Reports (checks v) (read v) := by
  rw [checks, read]
  refine Reports.cons rfl fun _ hkeys => ?_
  rw [Value.has_of_checkKeys hkeys, Value.has_of_checkKeys hkeys, Outcome.ok_bind,
    Outcome.ok_bind, ← Bool.not_and]
  dsimp only
  by_cases hcomplete : (v.hasKey "isd_as" && v.hasKey "mac") = true
  · rw [if_pos hcomplete, hcomplete]
    cases v with
    | scalar | list => exact .stop rfl _
    | map fields =>
        refine .skip rfl ?_
        refine (Value.reports_integerField fields "ingress" 0).bind fun ingress hingress => ?_
        refine (Value.reports_integerField fields "egress" 0).bind fun egress hegress => ?_
        rw [Value.field_map, Outcome.ok_bind]
        refine Reports.cons rfl fun mac hmac => ?_
        refine (Value.reports_integerField fields "expiry" _).bind fun expiry hexpiry => ?_
        rw [hingress, hegress, hexpiry]
        refine (HopField.reports_ofValues _ _ _ (Value.length_of_asMac hmac)).bind fun _ _ => ?_
        refine (reports_readStaticInfo fields).bind fun _ _ => ?_
        rw [Value.field_map, Outcome.ok_bind]
        refine Reports.cons rfl fun isdAs hisdAs => ?_
        refine (Value.reports_integerField fields "mtu" _).bind fun mtu hmtu => ?_
        refine (Value.reports_integerField fields "ingress_mtu" _).bind fun ingressMtu hlink => ?_
        rw [hisdAs, hmtu, hlink]
        exact reports_ofValues _ _ _ _ _
  · rw [if_neg hcomplete, Bool.eq_false_iff.2 hcomplete]
    exact .stop rfl _

end AsEntry

theorem SegmentInfo.reports_ofValues (segId timestamp : Int) (constructionDirection : Bool) :
    Reports [.width "seg_id" 16 segId, .width "timestamp" 32 timestamp]
      (ofValues segId timestamp constructionDirection) :=
  .cons rfl fun _ _ => .cons rfl fun _ _ => .ok _

namespace PathSegment

def checks (v : Value) : List Check :=
  .keys v "segment" keys ::
    match v.getD "entries" with
    | .list (item :: rest) =>
      [(item :: rest).flatMap AsEntry.checks, Check.ofField .integer v "seg_id",
        Check.ofField .integer v "timestamp",
        [Check.widthOf "seg_id" 16 (v.integerField "seg_id" 0),
          Check.widthOf "timestamp" 32 (v.integerField "timestamp" 0)].flatten,
        [.role (v.getD "type")]].flatten
    | _ => [.refused .entriesMissing rfl]

theorem exists_ofEntries {items : List Value} {entries : List AsEntry}
    (h : items.mapM AsEntry.read = .ok entries) (hitems : items ≠ []) (info : SegmentInfo)
    (type : SegmentType) (mark : Value) : ∃ s, ofEntries entries info type mark = .ok s := by
  have hentries : entries ≠ [] := by
    rintro rfl
    exact hitems (List.forall₂_nil_right_iff.1 (Outcome.mapM_eq_ok_iff.1 h))
  exact ⟨_, dif_neg hentries⟩

theorem reports_read (fields : List (Scalar × Value)) :
    Reports (checks (.map fields)) (read (.map fields)) := by
  rw [checks, read]
  refine Reports.cons rfl fun _ _ => ?_
  rw [Value.field_map, Outcome.ok_bind]
  cases (Value.map fields).getD "entries" with
  | scalar | map => exact .stop rfl _
  | list items =>
      cases items with
      | nil => exact .stop rfl _
      | cons item rest =>
          dsimp only
          rw [Value.field_map, Outcome.ok_bind]
          refine (Reports.mapM fun v _ => AsEntry.reports_read v).bind fun entries hentries => ?_
          refine (Value.reports_integerField fields "seg_id" 0).bind fun segId hsegId => ?_
          refine (Value.reports_integerField fields "timestamp" 0).bind fun timestamp htime => ?_
          rw [hsegId, htime]
          change Reports _ (SegmentInfo.ofValues segId timestamp _ >>= _)
          refine (SegmentInfo.reports_ofValues segId timestamp _).bind fun info _ => ?_
          refine Reports.cons rfl fun type _ => ?_
          obtain ⟨s, hs⟩ := exists_ofEntries hentries (List.cons_ne_nil item rest) info type
            (.map fields)
          rw [hs]
          exact .ok s

end PathSegment

namespace Topology

def checks (v : Value) : List Check :=
  .keys v "topology" keys ::
    if v.hasKey "isd_as" then
      match (v.getD "border_routers").optionalPairs? with
      | some routers =>
        [[.identifier (v.getD "isd_as")], Check.ofField .integer v "mtu",
          Check.byInterface (fun value => [.text value]) routers].flatten
      | none => [.refused (.notMapping "border_routers") rfl]
    else [.refused .topologyIncomplete rfl]

theorem reports_read (fields : List (Scalar × Value)) :
    Reports (checks (.map fields)) (read (.map fields)) := by
  rw [checks, read]
  refine Reports.cons rfl fun _ hkeys => ?_
  rw [Value.has_of_checkKeys hkeys, Outcome.ok_bind]
  cases (Value.map fields).hasKey "isd_as" with
  | false => exact .stop rfl _
  | true =>
      dsimp only
      rw [if_pos rfl, if_neg (by decide), Value.field_map, Outcome.ok_bind]
      cases ((Value.map fields).getD "border_routers").optionalPairs? with
      | none => exact .stop rfl _
      | some routers =>
          dsimp only
          rw [Value.field_map, Outcome.ok_bind]
          refine Reports.cons rfl fun isdAs _ => ?_
          change Reports _ ((Value.map fields).integerField "mtu" defaultMtu >>= _)
          refine (Value.reports_integerField fields "mtu" _).bind fun mtu _ => ?_
          exact (reports_readInterfaceMap (fun _ => .single rfl) routers).bind fun _ _ => .ok _

end Topology

namespace Fixture

def segmentChecks (v : Value) : List Check :=
  match v with
  | .map _ =>
    match v.getD "query" with
    | .list [source, destination] =>
      .identifier source :: .identifier destination :: PathSegment.checks v
    | _ => [.refused .queryMissing rfl]
  | _ => [.refused .segmentNotMapping rfl]

/-- The checks of the segments of a document; whatever counts as false stands for none. -/
def listChecks (v : Value) : List Check :=
  match v.getD "segments" with
  | .list items => items.flatMap segmentChecks
  | segments => if segments.truth then [.refused .segmentsNotList rfl] else []

def fieldChecks (v : Value) : List Check :=
  .keys v "fixture" keys ::
    (Check.mappingAt v "topology" (fun fields => Topology.checks (.map fields)) ++ listChecks v)

/-- The checks of a document, in the order of reading. -/
def checks (document : Value) : List Check :=
  match document with
  | .scalar .null => fieldChecks (.map [])
  | .map fields => fieldChecks (.map fields)
  | _ => [.refused .documentNotMapping rfl]

theorem reports_readTopology (fields : List (Scalar × Value)) :
    Reports (Check.mappingAt (.map fields) "topology" fun fields => Topology.checks (.map fields))
      (readTopology (.map fields)) := by
  rw [Check.mappingAt, readTopology, Value.field_map, Outcome.ok_bind]
  cases (Value.map fields).getD "topology" with
  | map pairs => exact (Topology.reports_read pairs).map _
  | list => exact .stop rfl _
  | scalar s =>
      cases s with
      | null => exact .ok _
      | _ => exact .stop rfl _

theorem reports_readSegment (v : Value) : Reports (segmentChecks v) (readSegment v) := by
  cases v with
  | scalar | list => exact .stop rfl _
  | map fields =>
      rw [segmentChecks, readSegment, Value.field_map, Outcome.ok_bind]
      cases (Value.map fields).getD "query" with
      | scalar | map => exact .stop rfl _
      | list items =>
          rcases items with _ | ⟨source, _ | ⟨destination, _ | ⟨third, rest⟩⟩⟩
          · exact .stop rfl _
          · exact .stop rfl _
          · refine Reports.cons rfl fun _ _ => ?_
            refine Reports.cons rfl fun _ _ => ?_
            exact (PathSegment.reports_read fields).map _
          · exact .stop rfl _

theorem reports_segments (fields : List (Scalar × Value)) :
    Reports (listChecks (.map fields))
      (segmentRecords (.map fields) >>= fun records => records.mapM readSegment) := by
  rw [listChecks, segmentRecords, Value.field_map, Outcome.ok_bind]
  have hempty (v : Value) : Reports (if v.truth then [.refused .segmentsNotList rfl] else [])
      ((if v.truth then throw .segmentsNotList else pure []) >>= fun records =>
        records.mapM readSegment) := by
    split_ifs
    · exact .stop rfl _
    · exact .ok _
  cases (Value.map fields).getD "segments" with
  | list items => exact .mapM fun v _ => reports_readSegment v
  | scalar | map => exact hempty _

theorem reports_read (document : Value) : Reports (checks document) (read document) := by
  have hmap (fields : List (Scalar × Value)) :
      Reports (fieldChecks (.map fields)) (read (.map fields)) := by
    rw [fieldChecks, read, pure_bind]
    refine Reports.cons rfl fun _ _ => ?_
    refine (reports_readTopology fields).bind fun topology _ => ?_
    dsimp only
    rw [← bind_assoc]
    exact (reports_segments fields).map _
  cases document with
  | map fields => exact hmap fields
  | list items => exact .stop rfl _
  | scalar s =>
      cases s with
      | null => exact hmap []
      | _ => exact .stop rfl _

/-- A document is read if it passes all checks. Otherwise the first check that fails says how it is
refused: for an invalid value, or, exactly if a value cannot be asked what the check asks of it, in
one of three other ways. -/
theorem read_by_checks (document : Value) :
    (∃ fixture, read document = .ok fixture) ∧ (∀ c ∈ checks document, c.fault = none) ∨
      ∃ before c after fault, checks document = before ++ c :: after ∧
        (∀ earlier ∈ before, earlier.fault = none) ∧ c.fault = some fault ∧
        read document = .error fault ∧ (fault.kind ≠ .invalid ↔ c.unmet = some fault) ∧
        fault.kind ∈ [FaultKind.invalid, .wrongShape, .missingFeature, .overflow] := by
  have hreports := reports_read document
  unfold Reports Check.firstFault at hreports
  cases hread : read document with
  | ok fixture =>
      rw [hread] at hreports
      exact Or.inl ⟨⟨fixture, rfl⟩, List.findSome?_eq_none_iff.1 hreports⟩
  | error fault =>
      rw [hread] at hreports
      obtain ⟨before, c, after, hsplit, hfault, hbefore⟩ := List.findSome?_eq_some_iff.1 hreports
      have hunmet := Check.kind_ne_invalid_iff hfault
      refine Or.inr ⟨before, c, after, fault, hsplit, hbefore, hfault, rfl, hunmet, ?_⟩
      by_cases hkind : fault.kind = .invalid
      · rw [hkind]
        exact List.mem_cons_self
      · exact List.mem_cons_of_mem _ (Check.kind_of_unmet (hunmet.1 hkind))

def ofSegment (fields : List (String × Value)) : Value :=
  .record [("segments", .list [.record (("query", .list [.text "1-0", .text "1-0"]) :: fields)])]

def withoutEntry : Value := ofSegment [("entries", .list [.null])]

def withNumberedRole : Value :=
  ofSegment [("type", .int 5),
    ("entries", .list [.record [("isd_as", .text "1-110"), ("mac", .text "aabbccddeeff")]])]

def withEndlessMtu : Value :=
  .record [("topology",
    .record [("isd_as", .text "1-110"), ("mtu", .scalar (.float .infinity))])]

/-- One document for each of these ways. -/
theorem read_breaksOff :
    read withoutEntry = .error .wrongShape ∧ read withNumberedRole = .error .missingFeature ∧
      read withEndlessMtu = .error .integerOfInfinity ∧
      ¬ ∀ document, (∃ fixture, read document = .ok fixture) ∨
        ∃ fault, read document = .error fault ∧ fault.kind = .invalid := by
  have hentry : read withoutEntry = .error .wrongShape := rfl
  refine ⟨hentry, rfl, rfl, fun h => ?_⟩
  rcases h withoutEntry with ⟨fixture, hread⟩ | ⟨fault, hread, hinvalid⟩
  · rw [hentry] at hread
    cases hread
  · rw [hentry] at hread
    cases hread
    cases hinvalid

end Fixture

end PathAssembly
