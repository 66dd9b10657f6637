import PathAssembly.Header.Alert
import PathAssembly.Header.Crossing
import PathAssembly.Proofs.Header.Prefix

/-!
# What an alert changes

The place of a hop field is computed from the lengths alone, whereas decoding counts its way through
the fields. Both mean the same hop (`readRow_modify`): the octet that is changed is the first one of
the field that is decoded at the index. Everything else is a fact about two bits of this octet, of
which `toNat_raiseFlags` says all there is to know.
-/

namespace PathAssembly

def WireHop.raise (ingress egress : Bool) (hop : WireHop) : WireHop :=
  { hop with
    ingressAlert := hop.ingressAlert || ingress
    egressAlert := hop.egressAlert || egress }

namespace Octets

/-- Changing the first octet of a field of a row changes this field. -/
theorem readRow_modify {α : Type} {decode : List UInt8 → α} {size : Nat}
    (hdecode : ∀ octets : List UInt8, decode (octets.take size) = decode octets)
    {change : UInt8 → UInt8} {changed : α → α} (hsize : 0 < size)
    (hchange : ∀ octets : List UInt8, size ≤ octets.length →
      decode (octets.modify 0 change) = changed (decode octets))
    {count i : Nat} {octets : List UInt8} (hi : i < count)
    (hlength : count * size ≤ octets.length) :
    readRow decode size count (octets.modify (i * size) change)
      = (readRow decode size count octets).modify i changed := by
  induction count generalizing i octets with
  | zero => exact absurd hi (Nat.not_lt_zero i)
  | succ count ih =>
      rw [Nat.add_mul, Nat.one_mul] at hlength
      rw [readRow_succ, readRow_succ]
      cases i with
      | zero =>
          rw [Nat.zero_mul, hchange octets (by omega), List.drop_modify_of_lt _ _ _ _ hsize,
            List.modify_zero_cons]
      | succ i =>
          rw [Nat.add_mul, Nat.one_mul]
          have hkept : decode (octets.modify (i * size + size) change) = decode octets := by
            rw [← hdecode, List.take_modify,
              List.modify_eq_self ((List.length_take_le ..).trans (Nat.le_add_left ..)), hdecode]
          rw [hkept, List.drop_modify_of_ge _ _ _ _ (Nat.le_add_left ..), Nat.add_sub_cancel,
            ih (Nat.lt_of_succ_lt_succ hi) (by rw [List.length_drop]; omega),
            List.modify_succ_cons]

end Octets

namespace WireHop

theorem get_ingressBit (word : Int) : ingressBit.get word = word / 2 % 2 :=
  BitField.get_eq_ediv_emod ..

theorem get_egressBit (word : Int) : egressBit.get word = word % 2 := by
  rw [BitField.get_eq_ediv_emod]
  change word / 1 % 2 = _
  rw [Int.ediv_one]

theorem test_flag {bit : BitField} {flags : UInt8} {digit : Nat}
    (h : bit.get flags.toNat = digit) : bit.test (Octets.toNat [flags]) = (digit == 1) := by
  have hnumber : Octets.toNat [flags] = flags.toNat := by
    rw [Octets.toNat, List.foldl_cons, List.foldl_nil, Nat.zero_mul, Nat.zero_add]
  rw [BitField.test, hnumber, h, Bool.eq_iff_iff, beq_iff_eq, beq_iff_eq]
  exact Int.ofNat_inj

end WireHop

namespace PathHeader

variable {raw : List UInt8} {p : PathHeader} {lengths : List Int}

/-- The first six flags stay, and each of the last two is set if it was or is to be. -/
theorem toNat_raiseFlags (flags : UInt8) (ingress egress : Bool) :
    (raiseFlags flags ingress egress).toNat = flags.toNat / 4 * 4
      + (if ingress then 1 else flags.toNat / 2 % 2) * 2
      + (if egress then 1 else flags.toNat % 2) := by
  have hflags := flags.toNat_lt
  have hingress : ∀ word : Int, WireHop.ingressBit.assign word true
      = word + (1 - word / 2 % 2) * 2 := by
    intro word
    rw [BitField.assign, BitField.set, WireHop.get_ingressBit]
    rfl
  have hegress : ∀ word : Int, WireHop.egressBit.assign word true
      = word + (1 - word % 2) * 1 := by
    intro word
    rw [BitField.assign, BitField.set, WireHop.get_egressBit]
    rfl
  have hword : ∀ n : Nat, n < 256 → (UInt8.ofNat n).toNat = n := by
    intro n hn
    rw [UInt8.toNat_ofNat', Nat.mod_eq_of_lt hn]
  cases ingress with
  | false =>
      cases egress with
      | false =>
          simp only [raiseFlags, Bool.false_eq_true, if_false, Int.toNat_natCast]
          rw [hword _ hflags]
          omega
      | true =>
          simp only [raiseFlags, Bool.false_eq_true, if_false, if_true, hegress]
          rw [hword _ (by omega)]
          omega
  | true =>
      cases egress with
      | false =>
          simp only [raiseFlags, Bool.false_eq_true, if_false, if_true, hingress]
          rw [hword _ (by omega)]
          omega
      | true =>
          simp only [raiseFlags, if_true, hingress, hegress]
          rw [hword _ (by omega)]
          omega

theorem raiseFlags_div_four (flags : UInt8) (ingress egress : Bool) :
    (raiseFlags flags ingress egress).toNat / 4 = flags.toNat / 4 := by
  rw [toNat_raiseFlags]
  split <;> split <;> omega

theorem raiseFlags_div_two_mod (flags : UInt8) (ingress egress : Bool) :
    (raiseFlags flags ingress egress).toNat / 2 % 2
      = if ingress then 1 else flags.toNat / 2 % 2 := by
  rw [toNat_raiseFlags]
  split <;> split <;> omega

theorem raiseFlags_mod_two (flags : UInt8) (ingress egress : Bool) :
    (raiseFlags flags ingress egress).toNat % 2 = if egress then 1 else flags.toNat % 2 := by
  rw [toNat_raiseFlags]
  split <;> split <;> omega

theorem raiseFlags_shiftRight (flags : UInt8) (ingress egress : Bool) :
    raiseFlags flags ingress egress >>> 2 = flags >>> 2 := by
  have hshift : ∀ octet : UInt8, (octet >>> 2).toNat = octet.toNat / 4 := by
    intro octet
    rw [UInt8.toNat_shiftRight]
    exact Nat.shiftRight_eq_div_pow octet.toNat 2
  rw [← UInt8.toNat_inj, hshift, hshift, raiseFlags_div_four]

theorem raiseFlags_raiseFlags (flags : UInt8) (ingress egress ingress' egress' : Bool) :
    raiseFlags (raiseFlags flags ingress egress) ingress' egress'
      = raiseFlags flags (ingress || ingress') (egress || egress') := by
  have hor : ∀ (on on' : Bool) (bit : Nat), (if on' then 1 else if on then 1 else bit)
      = if on || on' then 1 else bit := by
    intro on on' bit
    cases on <;> cases on' <;> rfl
  rw [← UInt8.toNat_inj, toNat_raiseFlags, raiseFlags_div_four, raiseFlags_div_two_mod,
    raiseFlags_mod_two, hor, hor, ← toNat_raiseFlags]

end PathHeader

namespace WireHop

/-- Raised flags are those of a hop field that is alerted. -/
theorem decode_modify {octets : List UInt8} (h : size ≤ octets.length) (ingress egress : Bool) :
    decode (octets.modify 0 fun flags => PathHeader.raiseFlags flags ingress egress)
      = (decode octets).raise ingress egress := by
  cases octets with
  | nil => cases h
  | cons flags rest =>
      have hor : ∀ (bit : Nat) (on : Bool), ((if on then 1 else bit) == 1) = (bit == 1 || on) := by
        intro bit on
        cases on with
        | false => rw [Bool.or_false]; rfl
        | true => rw [Bool.or_true]; rfl
      have hread : ∀ flags : UInt8, decode (flags :: rest) =
          { ingress := Octets.toNat ((rest.drop 1).take 2)
            egress := Octets.toNat ((rest.drop 3).take 2)
            mac := (rest.drop 5).take 6
            expiry := Octets.toNat (rest.take 1)
            ingressAlert := flags.toNat / 2 % 2 == 1
            egressAlert := flags.toNat % 2 == 1 } := by
        intro flags
        have hingress : ingressBit.test (Octets.toNat [flags]) = (flags.toNat / 2 % 2 == 1) :=
          test_flag (get_ingressBit flags.toNat)
        have hegress : egressBit.test (Octets.toNat [flags]) = (flags.toNat % 2 == 1) :=
          test_flag (get_egressBit flags.toNat)
        rw [← hingress, ← hegress]
        rfl
      rw [List.modify_zero_cons, hread, hread, PathHeader.raiseFlags_div_two_mod,
        PathHeader.raiseFlags_mod_two, hor, hor]
      rfl

end WireHop

namespace PathHeader

variable {raw : List UInt8} {p : PathHeader} {lengths : List Int}

/-- The place of a hop field in octets that start with lengths. -/
def hopPlace (lengths : List Int) (index : Nat) : Nat :=
  metaSize + segmentCount lengths * InfoField.size + index * WireHop.size

def alerted (raw : List UInt8) (lengths : List Int) (index : Nat) (ingress egress : Bool) :
    List UInt8 :=
  raw.modify (hopPlace lengths index) fun flags => raiseFlags flags ingress egress

theorem hopPlace_lt {index : Nat} (hindex : index < (hopCount lengths).toNat)
    (hlength : announcedLength lengths ≤ raw.length) : hopPlace lengths index < raw.length := by
  rw [announcedLength, WireHop.size] at hlength
  rw [hopPlace, WireHop.size]
  omega

theorem hopPlace_injective (lengths : List Int) : Function.Injective (hopPlace lengths) := by
  intro index index' h
  rw [hopPlace, hopPlace, WireHop.size] at h
  omega

theorem hopOffset_eq_ok (h : segmentLengths raw = .ok lengths) {index : Int} (hlow : 0 ≤ index)
    (hhigh : index < hopCount lengths) :
    hopOffset raw index = .ok (hopPlace lengths index.toNat) := by
  rw [hopOffset, h, Outcome.ok_bind, if_neg (by omega)]
  rfl

theorem setAlerts_eq_ok (h : segmentLengths raw = .ok lengths)
    (hlength : announcedLength lengths ≤ raw.length) {index : Int} (hlow : 0 ≤ index)
    (hhigh : index < hopCount lengths) (ingress egress : Bool) :
    setAlerts raw index ingress egress = .ok (alerted raw lengths index.toNat ingress egress) := by
  have hplace := hopPlace_lt (by omega : index.toNat < (hopCount lengths).toNat) hlength
  rw [setAlerts, flagsOffset, hopOffset_eq_ok h hlow hhigh, Outcome.ok_bind,
    List.getElem?_eq_getElem hplace, alerted, List.modify_eq_set_getElem?,
    List.getElem?_eq_getElem hplace]
  rfl

theorem setAlerts_eq_error (h : segmentLengths raw = .ok lengths) {index : Int}
    (hindex : ¬ (0 ≤ index ∧ index < hopCount lengths)) (ingress egress : Bool) :
    setAlerts raw index ingress egress = .error (.noHopField index lengths) := by
  have hout : index < 0 ∨ hopCount lengths ≤ index := by omega
  rw [setAlerts, flagsOffset, hopOffset, h, Outcome.ok_bind, if_pos hout]
  rfl

theorem take_alerted (raw : List UInt8) (lengths : List Int) (index : Nat)
    (ingress egress : Bool) :
    (alerted raw lengths index ingress egress).take metaSize = raw.take metaSize := by
  have hplace : metaSize ≤ hopPlace lengths index := by
    rw [hopPlace]
    omega
  rw [alerted, List.take_modify, List.modify_eq_self ((List.length_take_le ..).trans hplace)]

theorem segmentLengths_alerted (h : segmentLengths raw = .ok lengths) (index : Nat)
    (ingress egress : Bool) :
    segmentLengths (alerted raw lengths index ingress egress) = .ok lengths := by
  rw [← h, ← segmentLengths_take (Nat.le_refl metaSize), take_alerted,
    segmentLengths_take (Nat.le_refl metaSize)]

/-- Flags are set again in octets in which some are set already. -/
theorem setAlerts_alerted (h : segmentLengths raw = .ok lengths)
    (hlength : announcedLength lengths ≤ raw.length) (first : Nat) (ingress egress : Bool)
    {index : Int} (hlow : 0 ≤ index) (hhigh : index < hopCount lengths)
    (ingress' egress' : Bool) :
    setAlerts (alerted raw lengths first ingress egress) index ingress' egress'
      = .ok (alerted (alerted raw lengths first ingress egress) lengths index.toNat
        ingress' egress') := by
  refine setAlerts_eq_ok (segmentLengths_alerted h first ingress egress) ?_ hlow hhigh ..
  rw [alerted, List.length_modify]
  exact hlength

/-- The alerted header differs from the other one in the hop field of the index. -/
theorem ofOctets_alerted (hlength : announcedLength lengths ≤ raw.length) {index : Nat}
    (hindex : index < (hopCount lengths).toNat) (ingress egress : Bool) :
    ofOctets (alerted raw lengths index ingress egress) lengths
      = { ofOctets raw lengths with
          hops := (ofOctets raw lengths).hops.modify index (WireHop.raise ingress egress) } := by
  rw [announcedLength] at hlength
  have hmeta : metaWord (alerted raw lengths index ingress egress) = metaWord raw := by
    rw [metaWord, take_alerted, metaWord]
  have hbehind : (alerted raw lengths index ingress egress).drop metaSize
      = (raw.drop metaSize).modify
        (segmentCount lengths * InfoField.size + index * WireHop.size)
        fun flags => raiseFlags flags ingress egress := by
    rw [alerted, List.drop_modify_of_ge _ _ _ _ (by rw [hopPlace]; omega), hopPlace,
      Nat.add_assoc, Nat.add_sub_cancel_left]
  have hinfos : Octets.readRow InfoField.decode InfoField.size (segmentCount lengths)
      ((alerted raw lengths index ingress egress).drop metaSize)
      = Octets.readRow InfoField.decode InfoField.size (segmentCount lengths)
        (raw.drop metaSize) := by
    rw [← Octets.readRow_take InfoField.decode_take (Nat.le_refl _), hbehind, List.take_modify,
      List.modify_eq_self ((List.length_take_le ..).trans (Nat.le_add_right ..)),
      Octets.readRow_take InfoField.decode_take (Nat.le_refl _)]
  have hhops : Octets.readRow WireHop.decode WireHop.size (hopCount lengths).toNat
      (((alerted raw lengths index ingress egress).drop metaSize).drop
        (segmentCount lengths * InfoField.size))
      = (Octets.readRow WireHop.decode WireHop.size (hopCount lengths).toNat
        ((raw.drop metaSize).drop (segmentCount lengths * InfoField.size))).modify index
        (WireHop.raise ingress egress) := by
    rw [hbehind, List.drop_modify_of_ge _ _ _ _ (Nat.le_add_right ..), Nat.add_sub_cancel_left]
    refine Octets.readRow_modify WireHop.decode_take (by decide)
      (fun octets h => WireHop.decode_modify h ingress egress) hindex ?_
    rw [List.length_drop, List.length_drop]
    omega
  rw [ofOctets, hmeta, hinfos, hhops]
  rfl

def ends (hop : WireHop) : Int × Int := (hop.ingress, hop.egress)

theorem map_ends_modify (hops : List WireHop) (index : Nat) (ingress egress : Bool) :
    (hops.modify index (WireHop.raise ingress egress)).map ends = hops.map ends := by
  apply List.ext_getElem?
  intro i
  rw [List.getElem?_map, List.getElem?_modify, List.getElem?_map]
  cases hops[i]? with
  | none => rfl
  | some hop =>
      change some (ends (if index = i then hop.raise ingress egress else hop)) = some (ends hop)
      split
      next => rfl
      next => rfl

theorem hopCrossings_congr {hops hops' : List WireHop} (h : hops.map ends = hops'.map ends)
    (constructionDirection : Bool) :
    hopCrossings constructionDirection hops = hopCrossings constructionDirection hops' := by
  have hends : ∀ hops : List WireHop, hopCrossings constructionDirection hops
      = ((hops.map ends).zip (hops.map ends).tail).map fun (here, there) =>
        if constructionDirection then (here.2, there.1) else (here.1, there.2) := by
    intro hops
    rw [← List.map_tail, List.zip_map, List.map_map]
    rfl
  rw [hends, hends, h]

theorem crossings_congr {q : PathHeader} (hlengths : p.lengths = q.lengths)
    (hinfos : p.infos = q.infos) (hhops : p.hops.map ends = q.hops.map ends) :
    p.crossings = q.crossings := by
  have hslot : ∀ (slot : Nat) (constructionDirection : Bool),
      (do return hopCrossings constructionDirection (← p.segmentHops slot) : Except Fault _)
        = do return hopCrossings constructionDirection (← q.segmentHops slot) := by
    intro slot constructionDirection
    rw [segmentHops, segmentHops, ← hlengths]
    cases p.lengths[slot]? with
    | none => rfl
    | some length =>
        refine congrArg Except.ok (hopCrossings_congr ?_ constructionDirection)
        rw [List.map_take, List.map_drop, hhops, ← List.map_drop, ← List.map_take]
  rw [crossings, crossings, hinfos]
  simp only [hslot]

/-- What setting alert flags of a hop field makes of the octets of a header. -/
structure Alerts (raw out : List UInt8) (p : PathHeader) (index : Int) (ingress egress : Bool) :
    Prop where
  length_eq : out.length = raw.length
  changes : ∃ place, hopOffset raw index = .ok place ∧ (∀ i, i ≠ place → out[i]? = raw[i]?) ∧
    ∃ flags flags', raw[place]? = some flags ∧ out[place]? = some flags' ∧
      flags' >>> 2 = flags >>> 2
  decode_eq : decode out = .ok { p with
    hops := p.hops.modify index.toNat fun hop =>
      { hop with
        ingressAlert := hop.ingressAlert || ingress
        egressAlert := hop.egressAlert || egress } }
  interfacePairs_eq : interfacePairs out = interfacePairs raw
  again : setAlerts out index ingress egress = .ok out

theorem decode_alerted (h : decode raw = .ok p) {index : Nat}
    (hindex : index < (hopCount p.lengths).toNat) (ingress egress : Bool) :
    decode (alerted raw p.lengths index ingress egress)
      = .ok { p with hops := p.hops.modify index (WireHop.raise ingress egress) } := by
  obtain ⟨hlengths, hgap, hlength, hp⟩ := decode_eq_ok_iff.1 h
  refine decode_eq_ok_iff.2 ⟨segmentLengths_alerted hlengths index ingress egress, hgap, ?_, ?_⟩
  · rw [alerted, List.length_modify]
    exact hlength
  · rw [ofOctets_alerted hlength hindex, hp]

theorem alerted_alerted (raw : List UInt8) (lengths : List Int) (index : Nat)
    (ingress egress ingress' egress' : Bool) :
    alerted (alerted raw lengths index ingress egress) lengths index ingress' egress'
      = alerted raw lengths index (ingress || ingress') (egress || egress') := by
  rw [alerted, alerted, alerted, List.modify_modify_eq]
  exact congrArg (raw.modify _) (funext fun flags => raiseFlags_raiseFlags flags ..)

theorem alerted_comm (raw : List UInt8) (lengths : List Int) (index index' : Nat)
    (ingress egress ingress' egress' : Bool) :
    alerted (alerted raw lengths index ingress egress) lengths index' ingress' egress'
      = alerted (alerted raw lengths index' ingress' egress') lengths index ingress egress := by
  by_cases hindex : index = index'
  · rw [hindex, alerted_alerted, alerted_alerted, Bool.or_comm ingress, Bool.or_comm egress]
  · exact List.modify_modify_ne _ _ _ fun hplace => hindex (hopPlace_injective lengths hplace)

theorem alerts_alerted (h : decode raw = .ok p) {index : Int} (hlow : 0 ≤ index)
    (hhigh : index < hopCount p.lengths) (ingress egress : Bool) :
    Alerts raw (alerted raw p.lengths index.toNat ingress egress) p index ingress egress := by
  obtain ⟨hlengths, _, hlength, _⟩ := decode_eq_ok_iff.1 h
  have hindex : index.toNat < (hopCount p.lengths).toNat := by omega
  have hplace := hopPlace_lt hindex hlength
  have hdecode := decode_alerted h hindex ingress egress
  refine ⟨List.length_modify .., ⟨_, hopOffset_eq_ok hlengths hlow hhigh, ?_, ?_⟩, hdecode, ?_, ?_⟩
  · intro i hi
    exact List.getElem?_modify_ne _ _ hi.symm
  · refine ⟨_, _, List.getElem?_eq_getElem hplace, ?_, raiseFlags_shiftRight _ ingress egress⟩
    rw [alerted, List.getElem?_modify_eq, List.getElem?_eq_getElem hplace]
    rfl
  · rw [interfacePairs, interfacePairs, hdecode, h, Outcome.ok_bind, Outcome.ok_bind]
    exact crossings_congr rfl rfl (map_ends_modify ..)
  · rw [setAlerts_alerted hlengths hlength _ _ _ hlow hhigh, alerted_alerted, Bool.or_self,
      Bool.or_self]

/-- Setting alert flags of a hop field that a header has changes two bits of one octet, which are
the flags of this hop field; it can be repeated, and done for several hop fields in any order. For
an index without a hop field it is refused. -/
theorem setAlerts_settles (h : decode raw = .ok p) :
    (∀ (index : Int) (ingress egress : Bool), 0 ≤ index → index < p.hops.length →
      ∃ out, setAlerts raw index ingress egress = .ok out ∧
        Alerts raw out p index ingress egress) ∧
    (∀ (index index' : Int) (ingress egress ingress' egress' : Bool),
      0 ≤ index → index < p.hops.length → 0 ≤ index' → index' < p.hops.length →
      ∃ out, (setAlerts raw index ingress egress >>= fun first =>
          setAlerts first index' ingress' egress') = .ok out ∧
        (setAlerts raw index' ingress' egress' >>= fun first =>
          setAlerts first index ingress egress) = .ok out) ∧
    ∀ (index : Int) (ingress egress : Bool), ¬ (0 ≤ index ∧ index < p.hops.length) →
      ∃ fault, setAlerts raw index ingress egress = .error fault ∧
        fault = .noHopField index p.lengths ∧ fault.kind = .outside := by
  obtain ⟨hlengths, _, hlength, _⟩ := decode_eq_ok_iff.1 h
  rw [(encodable_of_decode h).length_hops]
  refine ⟨?_, ?_, ?_⟩
  · intro index ingress egress hlow hhigh
    exact ⟨_, setAlerts_eq_ok hlengths hlength hlow hhigh ingress egress,
      alerts_alerted h hlow hhigh ingress egress⟩
  · intro index index' ingress egress ingress' egress' hlow hhigh hlow' hhigh'
    refine ⟨alerted (alerted raw p.lengths index.toNat ingress egress) p.lengths index'.toNat
      ingress' egress', ?_, ?_⟩
    · rw [setAlerts_eq_ok hlengths hlength hlow hhigh, Outcome.ok_bind,
        setAlerts_alerted hlengths hlength _ _ _ hlow' hhigh']
    · rw [setAlerts_eq_ok hlengths hlength hlow' hhigh', Outcome.ok_bind,
        setAlerts_alerted hlengths hlength _ _ _ hlow hhigh, alerted_comm]
  · intro index ingress egress hindex
    exact ⟨_, setAlerts_eq_error hlengths hindex ingress egress, rfl, rfl⟩

theorem setAlerts_settles_twoHops : decode twoHopsOctets = .ok twoHops.padded ∧
    (∃ out, setAlerts twoHopsOctets 0 true false = .ok out ∧
      Alerts twoHopsOctets out twoHops.padded 0 true false) ∧
    ∃ fault, setAlerts twoHopsOctets 2 true true = .error fault ∧
      fault = .noHopField 2 [1, 1, 0] ∧ fault.kind = .outside := by
  have hread : decode twoHopsOctets = .ok twoHops.padded := by decide +kernel
  obtain ⟨hset, _, hrefused⟩ := setAlerts_settles hread
  exact ⟨hread, hset 0 true false (by decide) (by decide), hrefused 2 true true (by decide)⟩

end PathHeader

end PathAssembly
