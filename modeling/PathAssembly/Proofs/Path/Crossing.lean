import PathAssembly.Proofs.Path.Interface

/-!
# Interfaces and crossed links

The interface list of a path and its header tell the same links. The list is read off the entries of
the used ranges, two interfaces for each pair of neighbours; the header is decoded, and its hop
fields are compared slot by slot in the direction of the info field. Both give one link less per leg
than the leg has hop fields. Together with the walk along the list this says that a path is
connected also where one segment is left for the next one.
-/

namespace PathAssembly

/-- The links that interfaces belong to, pair by pair. -/
def PathInterface.pairs : List PathInterface → List Crossing
  | out :: into :: rest => (out.id, into.id) :: pairs rest
  | _ => []

/-- Behind each link a walk goes on in the AS that the link enters. -/
theorem Walks.isdAs_eq {a b : IsdAs} {interfaces : List PathInterface} (h : Walks a interfaces b)
    {i : Nat} {into out : PathInterface} (hinto : interfaces[2 * i + 1]? = some into)
    (hout : interfaces[2 * i + 2]? = some out) : into.isdAs = out.isdAs := by
  induction h generalizing i with
  | nil _ => cases hinto
  | @cons _ b _ rest _ entered hrest ih =>
      cases i with
      | zero =>
          have hhead : rest.head? = some out := by
            rw [List.head?_eq_getElem?]
            exact hout
          have hstart := hrest.head (List.ne_nil_of_mem (List.mem_of_mem_head? hhead))
          rw [hhead] at hstart
          cases hinto
          exact (Option.some.inj hstart).symm
      | succ i => exact ih hinto hout

namespace Leg

theorem pairs_links_append (reversed : Bool) (entries : List AsEntry) (more : List PathInterface) :
    PathInterface.pairs (links reversed entries ++ more)
      = PathHeader.hopCrossings (!reversed) (entries.map fun entry => .ofHopField entry.hop)
        ++ PathInterface.pairs more := by
  induction entries with
  | nil => rfl
  | cons here rest ih =>
      cases rest with
      | nil => rfl
      | cons there rest =>
          rw [links_cons_cons, List.append_assoc]
          cases reversed <;> exact congrArg (_ :: ·) ih

/-- The interfaces of legs belong to the links that their hop fields cross. -/
theorem pairs_flatMap_interfaces (legs : List Leg) :
    PathInterface.pairs (legs.flatMap interfaces)
      = legs.flatMap fun leg => PathHeader.hopCrossings (!leg.reversed) leg.hops := by
  induction legs with
  | nil => rfl
  | cons leg legs ih =>
      rw [List.flatMap_cons, List.flatMap_cons, ← ih]
      exact pairs_links_append leg.reversed leg.entries _

theorem length_links (reversed : Bool) {entries : List AsEntry} (h : entries ≠ []) :
    (links reversed entries).length + 2 = 2 * entries.length := by
  induction entries with
  | nil => exact absurd rfl h
  | cons here rest ih =>
      cases rest with
      | nil => rfl
      | cons there rest =>
          have htail := ih (List.cons_ne_nil there rest)
          have hlink : (link reversed here there).length = 2 := by cases reversed <;> rfl
          rw [links_cons_cons, List.length_append, hlink, Nat.add_assoc, htail,
            List.length_cons (a := here), Nat.mul_add, Nat.mul_one, Nat.add_comm]

/-- A leg has one link less than it has hop fields. -/
theorem length_flatMap_interfaces {legs : List Leg} (h : ∀ leg ∈ legs, leg.Countable) :
    (legs.flatMap interfaces).length + 2 * legs.length = 2 * (legs.flatMap hops).length := by
  induction legs with
  | nil => rfl
  | cons leg legs ih =>
      obtain ⟨hleg, hlegs⟩ := List.forall_mem_cons.1 h
      have hlinks : leg.interfaces.length + 2 = 2 * leg.hops.length := by
        rw [hops, List.length_map]
        exact length_links leg.reversed (List.length_pos_iff.1 hleg.1)
      have hrest := ih hlegs
      rw [List.flatMap_cons, List.flatMap_cons, List.length_append, List.length_append,
        List.length_cons, Nat.mul_add, Nat.mul_add, Nat.mul_one, ← hlinks, ← hrest]
      omega

end Leg

/-- What the interfaces of a path say, and the header with which they agree. -/
structure BuiltPath.Traverses (topology : Topology) (path : BuiltPath Unit)
    (header : PathHeader) : Prop where
  decode_raw : PathHeader.decode path.raw = .ok header
  length_interfaces :
    (path.interfaces.length : Int) = 2 * ((header.hops.length : Int) - header.infos.length)
  interfacePairs_raw : interfacePairs path.raw = .ok (PathInterface.pairs path.interfaces)
  connected : ∀ i into out, path.interfaces[2 * i + 1]? = some into →
    path.interfaces[2 * i + 2]? = some out → into.isdAs = out.isdAs
  starts : ∀ first rest, path.interfaces = first :: rest →
    first.isdAs = topology.isdAs ∧ topology.borderRouter first.id = .ok path.firstHop

theorem BuiltPath.inside_eq_ok (topology : Topology) (now : Int) :
    inside topology now
      = .ok { raw := [0, 0, 0, 0], mtu := topology.mtu, expiration := now, mark := () } := by
  have hmeta : PathHeader.encodeMeta [] 0 0 = .ok [0, 0, 0, 0] := by decide
  rw [inside, hmeta]
  rfl

theorem BuiltPath.traverses_of_inside {topology : Topology} {now : Int} {path : BuiltPath Unit}
    (h : inside topology now = .ok path) : ∃ header, path.Traverses topology header := by
  have hdecode : PathHeader.decode [0, 0, 0, 0]
      = .ok { lengths := [0, 0, 0], infos := [], hops := [] } := by decide
  rw [inside_eq_ok] at h
  cases h
  refine ⟨_, hdecode, rfl, Outcome.bind_eq_ok_iff.2 ⟨_, hdecode, rfl⟩, ?_, ?_⟩
  · intro i into out hinto
    cases hinto
  · intro first rest hfirst
    cases hfirst

namespace Candidate

variable {μ : Type} {c : Candidate μ} {topology : Topology} {now : Int} {path : BuiltPath Unit}

theorem result_build_of_nil (hnil : c.segments = []) (now : Int) :
    (c.build topology now).result
      = .ok (some { raw := [0, 0, 0, 0], mtu := topology.mtu, expiration := now, mark := () }) := by
  have hlocal : c.isLocal = true := by rw [isLocal, hnil, List.isEmpty_nil]
  simp only [build]
  rw [if_pos hlocal, BuiltPath.inside_eq_ok]
  rfl

theorem inside_of_build (hlocal : c.segments = [])
    (h : (c.build topology now).result = .ok (some path)) :
    BuiltPath.inside topology now = .ok path := by
  rw [result_build_of_nil hlocal] at h
  cases h
  exact BuiltPath.inside_eq_ok topology now

namespace Assembles

variable {ranges : List SegmentRange} {used : Truncated μ}

theorem interfacePairs_eq (h : c.Assembles topology ranges used path) :
    interfacePairs path.raw = .ok (PathInterface.pairs path.interfaces) := by
  rw [h.interfacePairs_raw, h.interfaces_eq]
  exact congrArg Except.ok (Leg.pairs_flatMap_interfaces _).symm

/-- The used ranges lead from the source to some AS. -/
theorem exists_leads (h : c.Assembles topology ranges used path) (hne : c.segments ≠ [])
    (hsource : topology.isdAs = c.source) :
    ∃ stop, Leads c.source (used.segments.zip used.ranges) stop := by
  obtain ⟨s, others, hsegments⟩ := List.exists_cons_of_ne_nil hne
  obtain ⟨r, stop, _, _, hmeets, havoids⟩ := h.leads hsegments hsource
  by_cases hdestination : Meets s r c.destination
  · exact ⟨c.destination, hmeets hdestination⟩
  · exact ⟨stop, havoids hdestination⟩

theorem traverses (h : c.Assembles topology ranges used path) (hne : c.segments ≠ [])
    (hsource : topology.isdAs = c.source) : ∃ header, path.Traverses topology header := by
  obtain ⟨stop, hleads⟩ := h.exists_leads hne hsource
  have hwalks := h.walks hleads
  obtain ⟨_, _, _, _, hfirstHop, _⟩ := BuiltPath.ofRanges_eq_ok h.fits h.built
  refine ⟨_, h.decode_raw.1, ?_, h.interfacePairs_eq, fun i _ _ => hwalks.isdAs_eq, ?_⟩
  · have hlength := Leg.length_flatMap_interfaces h.countable
    have hinterfaces : path.interfaces.length
        = ((Leg.alongAll used.segments used.ranges).flatMap Leg.interfaces).length :=
      congrArg List.length h.interfaces_eq
    have hinfos : ((Leg.alongAll used.segments used.ranges).map Leg.infoField).length
        = (Leg.alongAll used.segments used.ranges).length := List.length_map _
    change _ = 2 * ((((Leg.alongAll used.segments used.ranges).flatMap Leg.hops).length : Int)
      - ((Leg.alongAll used.segments used.ranges).map Leg.infoField).length)
    omega
  · intro first rest hfirst
    have hhead := hwalks.head (by rw [hfirst]; exact List.cons_ne_nil first rest)
    rw [hfirst] at hhead hfirstHop
    exact ⟨(Option.some.inj hhead).trans hsource.symm, hfirstHop⟩

end Assembles

/-- The path inside the local AS crosses nothing; every other path is assembled. -/
theorem crossesNothing_or_assembles (h : (c.build topology now).result = .ok (some path)) :
    (path.interfaces = [] ∧ interfacePairs path.raw = .ok []) ∨
      c.segments ≠ [] ∧ ∃ ranges used, c.Assembles topology ranges used path := by
  by_cases hsegments : c.segments = []
  · have hinside := inside_of_build hsegments h
    obtain ⟨header, hheader⟩ := BuiltPath.traverses_of_inside hinside
    rw [BuiltPath.inside_eq_ok] at hinside
    cases hinside
    exact Or.inl ⟨rfl, hheader.interfacePairs_raw⟩
  · exact Or.inr ⟨hsegments, assembles_of_build hsegments h⟩

theorem interfacePairs_of_build (h : (c.build topology now).result = .ok (some path)) :
    interfacePairs path.raw = .ok (PathInterface.pairs path.interfaces) := by
  rcases crossesNothing_or_assembles h with ⟨hnone, hpairs⟩ | ⟨_, ranges, used, hused⟩
  · rw [hpairs, hnone]
    rfl
  · exact hused.interfacePairs_eq

/-- The interfaces of a path are a connected walk from the local AS, of which the first one decides
the border router, and they belong to the links that the octets of the path cross. -/
theorem build_traverses (hlocal : topology.isdAs = c.source)
    (h : (c.build topology now).result = .ok (some path)) :
    ∃ header, path.Traverses topology header := by
  by_cases hsegments : c.segments = []
  · exact BuiltPath.traverses_of_inside (inside_of_build hsegments h)
  · obtain ⟨ranges, used, hused⟩ := assembles_of_build hsegments h
    exact hused.traverses hsegments hlocal

theorem build_traverses_viaShortcut :
    leafTopology.isdAs = viaShortcut.source ∧
      ∃ path, (viaShortcut.build leafTopology 0).result = .ok (some path) ∧
        path.interfaces.length = 4 ∧ ∃ header, path.Traverses leafTopology header := by
  obtain ⟨path, hpath, hlength⟩ : ∃ path, (viaShortcut.build leafTopology 0).result
      = .ok (some path) ∧ path.interfaces.length = 4 := ⟨_, rfl, rfl⟩
  exact ⟨rfl, path, hpath, hlength, build_traverses rfl hpath⟩

end Candidate

end PathAssembly
