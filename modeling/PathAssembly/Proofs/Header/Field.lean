import PathAssembly.Header.Field
import PathAssembly.Proofs.Bits.Independence
import PathAssembly.Proofs.Outcome

/-!
# Reading encoded fields back

An info field or a hop field whose values fit is encoded, and its octets read back as the same field
whatever stands behind them. `Octets.Reads` is this relation between a value and its octets; it
passes from single fields to a row of them (`readRow_flatten`), where the `i`-th field is read at a
multiple of the common size.
-/

namespace PathAssembly

namespace Octets

/-- Octets of a known number from which `decode` reads `x`, whatever stands behind them. -/
structure Reads {α : Type} (decode : List UInt8 → α) (size : Nat) (x : α)
    (octets : List UInt8) : Prop where
  length_eq : octets.length = size
  decode_append : ∀ rest, decode (octets ++ rest) = x

/-- The fields of one size that stand in a row at the start of octets. -/
def readRow {α : Type} (decode : List UInt8 → α) (size count : Nat) (octets : List UInt8) :
    List α :=
  (List.range count).map fun i => decode (octets.drop (i * size))

theorem pack_eq_ok {width : Nat} {value : Int} (h0 : 0 ≤ value) (h1 : value < Nat.pow 256 width) :
    pack width value = .ok (ofNat width value.toNat) := if_pos ⟨h0, h1⟩

theorem toNat_ofNat_toNat {width : Nat} {value : Int} (h0 : 0 ≤ value)
    (h1 : value < Nat.pow 256 width) : (toNat (ofNat width value.toNat) : Int) = value := by
  have hfit : value.toNat < Nat.pow 256 width := by omega
  rw [toNat_ofNat hfit, Int.toNat_of_nonneg h0]

theorem take_ofNat_append (width n : Nat) (octets : List UInt8) :
    (ofNat width n ++ octets).take width = ofNat width n :=
  List.take_left' (length_ofNat width n)

theorem drop_ofNat_append (width n i : Nat) (octets : List UInt8) :
    (ofNat width n ++ octets).drop (width + i) = octets.drop i := by
  rw [List.drop_append, length_ofNat, Nat.add_sub_cancel_left,
    List.drop_eq_nil_of_le (by rw [length_ofNat]; exact Nat.le_add_right ..), List.nil_append]

theorem readRow_succ {α : Type} (decode : List UInt8 → α) (size count : Nat)
    (octets : List UInt8) :
    readRow decode size (count + 1) octets
      = decode octets :: readRow decode size count (octets.drop size) := by
  unfold readRow
  rw [List.range_succ_eq_map, List.map_cons, List.map_map, Nat.zero_mul, List.drop_zero]
  congr 1
  apply List.map_congr_left
  intro i _
  rw [Function.comp_apply, List.drop_drop, Nat.succ_eq_add_one, Nat.add_mul, Nat.one_mul,
    Nat.add_comm]

/-- Fields that all lie within the octets are read, in a row. -/
theorem readFields_eq_ok {α : Type} (decode : List UInt8 → α) {needed size : Nat}
    (hneeded : needed ≤ size) {octets : List UInt8} {count place : Nat}
    (h : place + count * size ≤ octets.length) :
    readFields decode needed size octets count place
      = .ok (readRow decode size count (octets.drop place)) := by
  induction count generalizing place with
  | zero => rfl
  | succ count ih =>
      rw [Nat.add_mul, Nat.one_mul] at h
      have hplace : ¬ octets.length < place + needed := by omega
      rw [readFields, readAt, if_neg hplace, Outcome.ok_bind, ih (by omega), Outcome.ok_bind,
        readRow_succ, List.drop_drop]
      rfl

/-- Fields whose octets stand one behind the other are read in a row. -/
theorem readRow_flatten {α : Type} {decode : List UInt8 → α} {size : Nat} {fields : List α}
    {chunks : List (List UInt8)} (h : List.Forall₂ (Reads decode size) fields chunks)
    (rest : List UInt8) : readRow decode size fields.length (chunks.flatten ++ rest) = fields := by
  induction h with
  | nil => rfl
  | cons hfirst _ ih =>
      rw [List.length_cons, readRow_succ, List.flatten_cons, List.append_assoc,
        hfirst.decode_append, List.drop_left' hfirst.length_eq, ih]

theorem length_flatten_reads {α : Type} {decode : List UInt8 → α} {size : Nat} {fields : List α}
    {chunks : List (List UInt8)} (h : List.Forall₂ (Reads decode size) fields chunks) :
    chunks.flatten.length = fields.length * size := by
  induction h with
  | nil => simp
  | cons hfirst _ ih =>
      rw [List.flatten_cons, List.length_append, hfirst.length_eq, ih, List.length_cons,
        Nat.add_mul, Nat.one_mul, Nat.add_comm]

end Octets

namespace BitField

theorem test_assign (f : BitField) (word : Int) (on : Bool) (h : 1 < f.capacity) :
    f.test (f.assign word on) = on := by
  have hget : f.get (f.assign word on) = if on then 1 else 0 :=
    get_set f word (by cases on <;> decide) (by cases on <;> simp <;> omega)
  rw [test, hget]
  cases on <;> rfl

theorem get_assign_of_apart {f g : BitField} (hf : f.Fits) (hg : g.Fits) (h : f.Apart g)
    (hcapacity : 1 < f.capacity) (word : Int) (on : Bool) :
    g.get (f.assign word on) = g.get word :=
  get_set_of_apart hf hg h word (by cases on <;> decide) (by cases on <;> simp <;> omega)

theorem test_assign_of_apart {f g : BitField} (hf : f.Fits) (hg : g.Fits) (h : f.Apart g)
    (hcapacity : 1 < f.capacity) (word : Int) (on : Bool) :
    g.test (f.assign word on) = g.test word := by
  rw [test, get_assign_of_apart hf hg h hcapacity, test]

theorem test_set_of_apart {f g : BitField} (hf : f.Fits) (hg : g.Fits) (h : f.Apart g) (word : Int)
    {value : Int} (h0 : 0 ≤ value) (h1 : value < f.capacity) :
    g.test (f.set word value) = g.test word := by
  rw [test, get_set_of_apart hf hg h word h0 h1, test]

theorem assign_mem_range {f : BitField} (hf : f.Fits) (hcapacity : 1 < f.capacity) (word : Int)
    (hword : 0 ≤ word ∧ word < Nat.pow 2 f.size.toNat) (on : Bool) :
    0 ≤ f.assign word on ∧ f.assign word on < Nat.pow 2 f.size.toNat :=
  set_mem_range hf word hword.1 hword.2 (by cases on <;> decide) (by cases on <;> simp <;> omega)

end BitField

namespace InfoField

structure Encodable (f : InfoField) : Prop where
  segId_nonneg : 0 ≤ f.segId
  segId_lt : f.segId < segIdField.capacity
  timestamp_nonneg : 0 ≤ f.timestamp
  timestamp_lt : f.timestamp < Nat.pow 256 4

def flags (f : InfoField) : Int :=
  directionBit.assign (peerBit.assign 0 f.peer) f.constructionDirection

def word (f : InfoField) : Int := segIdField.set f.flags f.segId

theorem fits_peerBit : peerBit.Fits := by decide

theorem fits_directionBit : directionBit.Fits := by decide

theorem fits_segIdField : segIdField.Fits := by decide

theorem word_mem_range {f : InfoField} (h : f.Encodable) :
    0 ≤ f.word ∧ f.word < Nat.pow 256 4 := by
  have hpeer := BitField.assign_mem_range fits_peerBit (by decide) 0 (by decide) f.peer
  have hflags := BitField.assign_mem_range fits_directionBit (by decide) _ hpeer
    f.constructionDirection
  exact BitField.set_mem_range fits_segIdField _ hflags.1 hflags.2 h.segId_nonneg h.segId_lt

theorem test_directionBit_word {f : InfoField} (h : f.Encodable) :
    directionBit.test f.word = f.constructionDirection := by
  have hset := BitField.test_set_of_apart fits_segIdField fits_directionBit (by decide) f.flags
    h.segId_nonneg h.segId_lt
  rw [word, hset, flags, BitField.test_assign _ _ _ (by decide)]

theorem test_peerBit_word {f : InfoField} (h : f.Encodable) : peerBit.test f.word = f.peer := by
  have hset := BitField.test_set_of_apart fits_segIdField fits_peerBit (by decide) f.flags
    h.segId_nonneg h.segId_lt
  have hassign := BitField.test_assign_of_apart fits_directionBit fits_peerBit (by decide)
    (by decide) (peerBit.assign 0 f.peer) f.constructionDirection
  rw [word, hset, flags, hassign, BitField.test_assign _ _ _ (by decide)]

theorem encode_eq_ok {f : InfoField} (h : f.Encodable) :
    f.encode = .ok (Octets.ofNat 4 f.word.toNat ++ Octets.ofNat 4 f.timestamp.toNat) := by
  have hword := BitField.write_eq_ok fits_segIdField f.flags h.segId_nonneg h.segId_lt
  have htime := Octets.pack_eq_ok h.timestamp_nonneg h.timestamp_lt
  unfold flags at hword
  rw [encode, hword, htime]
  rfl

theorem encode_reads {f : InfoField} (h : f.Encodable) :
    ∃ octets, f.encode = .ok octets ∧ Octets.Reads decode size f octets := by
  refine ⟨_, encode_eq_ok h, by simp [size], ?_⟩
  intro rest
  have hword := Octets.toNat_ofNat_toNat (word_mem_range h).1 (word_mem_range h).2
  have htime := Octets.toNat_ofNat_toNat h.timestamp_nonneg h.timestamp_lt
  have hseg : segIdField.get f.word = f.segId := BitField.get_set _ _ h.segId_nonneg h.segId_lt
  simp only [decode, List.append_assoc, Octets.drop_ofNat_append 4 _ 0, List.drop_zero,
    Octets.take_ofNat_append, hword, htime, hseg, test_directionBit_word h, test_peerBit_word h]

end InfoField

namespace WireHop

structure Encodable (h : WireHop) : Prop where
  ingress_nonneg : 0 ≤ h.ingress
  ingress_lt : h.ingress < Nat.pow 256 2
  egress_nonneg : 0 ≤ h.egress
  egress_lt : h.egress < Nat.pow 256 2
  expiry_nonneg : 0 ≤ h.expiry
  expiry_lt : h.expiry < Nat.pow 256 1
  length_mac : h.mac.length = macLength

def flags (h : WireHop) : Int :=
  egressBit.assign (ingressBit.assign 0 h.ingressAlert) h.egressAlert

theorem fits_ingressBit : ingressBit.Fits := by decide

theorem fits_egressBit : egressBit.Fits := by decide

theorem flags_mem_range (h : WireHop) : 0 ≤ h.flags ∧ h.flags < Nat.pow 256 1 := by
  have hingress := BitField.assign_mem_range fits_ingressBit (by decide) 0 (by decide)
    h.ingressAlert
  exact BitField.assign_mem_range fits_egressBit (by decide) _ hingress h.egressAlert

theorem test_ingressBit_flags (h : WireHop) : ingressBit.test h.flags = h.ingressAlert := by
  have hassign := BitField.test_assign_of_apart fits_egressBit fits_ingressBit (by decide)
    (by decide) (ingressBit.assign 0 h.ingressAlert) h.egressAlert
  rw [flags, hassign, BitField.test_assign _ _ _ (by decide)]

theorem test_egressBit_flags (h : WireHop) : egressBit.test h.flags = h.egressAlert :=
  BitField.test_assign _ _ _ (by decide)

theorem encode_eq_ok {h : WireHop} (fits : h.Encodable) :
    h.encode = .ok (Octets.ofNat 1 h.flags.toNat ++ (Octets.ofNat 1 h.expiry.toNat
      ++ (Octets.ofNat 2 h.ingress.toNat ++ (Octets.ofNat 2 h.egress.toNat ++ h.mac)))) := by
  have hmac : Mac.ofOctets h.mac = .ok ⟨h.mac, fits.length_mac⟩ := dif_pos fits.length_mac
  have hexpiry := Octets.pack_eq_ok fits.expiry_nonneg fits.expiry_lt
  have hingress := Octets.pack_eq_ok fits.ingress_nonneg fits.ingress_lt
  have hegress := Octets.pack_eq_ok fits.egress_nonneg fits.egress_lt
  rw [encode, hmac, hexpiry, hingress, hegress]
  simp only [← List.append_assoc]
  rfl

theorem encode_reads {h : WireHop} (fits : h.Encodable) :
    ∃ octets, h.encode = .ok octets ∧ Octets.Reads decode size h octets := by
  refine ⟨_, encode_eq_ok fits, by simp [size, fits.length_mac, macLength], ?_⟩
  intro rest
  have hflags := Octets.toNat_ofNat_toNat (flags_mem_range h).1 (flags_mem_range h).2
  have hexpiry := Octets.toNat_ofNat_toNat fits.expiry_nonneg fits.expiry_lt
  have hingress := Octets.toNat_ofNat_toNat fits.ingress_nonneg fits.ingress_lt
  have hegress := Octets.toNat_ofNat_toNat fits.egress_nonneg fits.egress_lt
  have hmac : (h.mac ++ rest).take 6 = h.mac := List.take_left' fits.length_mac
  -- each number is read at the sum of the widths in front of it
  simp only [decode, List.append_assoc, Octets.drop_ofNat_append 1 _ 0,
    Octets.drop_ofNat_append 1 _ 1, Octets.drop_ofNat_append 1 _ 3, Octets.drop_ofNat_append 1 _ 5,
    Octets.drop_ofNat_append 1 _ 2, Octets.drop_ofNat_append 1 _ 4,
    Octets.drop_ofNat_append 2 _ 0, Octets.drop_ofNat_append 2 _ 2, List.drop_zero,
    Octets.take_ofNat_append, hmac, hflags, hexpiry, hingress, hegress, test_ingressBit_flags,
    test_egressBit_flags]

end WireHop

end PathAssembly
