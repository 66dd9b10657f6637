import PathAssembly.Path.Distinct
import PathAssembly.Proofs.Outcome
import PathAssembly.Proofs.Path.Ledger
import PathAssembly.Proofs.Sorting

/-!
# Buckets and ledgers

The buckets hold what a ledger holds: the kept paths of all buckets are the entries of the ledger,
each with its place as number, in some order that depends on the hash. Only two facts about the hash
matter. A path stands in the bucket of the hash of its links, so that the paths of all other buckets
cross other links; and sorting by place undoes the order of the buckets, whatever it is.
-/

namespace PathAssembly

namespace KeptPath

variable {μ : Type}

def numbered (n : Nat) : List (List Crossing × BuiltPath μ) → List (KeptPath μ)
  | [] => []
  | (links, path) :: rest => ⟨n, links, path⟩ :: numbered (n + 1) rest

theorem numbered_append (n : Nat) (entries more : List (List Crossing × BuiltPath μ)) :
    numbered n (entries ++ more) = numbered n entries ++ numbered (n + entries.length) more := by
  induction entries generalizing n with
  | nil => rfl
  | cons entry rest ih =>
      rw [List.cons_append, numbered, ih, numbered, List.cons_append, List.length_cons,
        Nat.add_right_comm, Nat.add_assoc]

theorem numbered_middle (n : Nat) (before after : List (List Crossing × BuiltPath μ))
    (links : List Crossing) (path : BuiltPath μ) :
    numbered n (before ++ (links, path) :: after)
      = numbered n before ++ ⟨n + before.length, links, path⟩
        :: numbered (n + before.length + 1) after :=
  numbered_append n before _

theorem map_path_numbered (n : Nat) (entries : List (List Crossing × BuiltPath μ)) :
    (numbered n entries).map (·.path) = entries.map Prod.snd := by
  induction entries generalizing n with
  | nil => rfl
  | cons entry rest ih => rw [numbered, List.map_cons, List.map_cons, ih]

theorem map_links_numbered (n : Nat) (entries : List (List Crossing × BuiltPath μ)) :
    (numbered n entries).map (·.links) = entries.map Prod.fst := by
  induction entries generalizing n with
  | nil => rfl
  | cons entry rest ih => rw [numbered, List.map_cons, List.map_cons, ih]

theorem length_numbered (n : Nat) (entries : List (List Crossing × BuiltPath μ)) :
    (numbered n entries).length = entries.length := by
  rw [← List.length_map (·.path), map_path_numbered, List.length_map]

theorem exists_entries_eq_of_mem_numbered {n : Nat} {entries : List (List Crossing × BuiltPath μ)}
    {k : KeptPath μ} (h : k ∈ numbered n entries) :
    ∃ before after, entries = before ++ (k.links, k.path) :: after ∧
      k.order = n + before.length := by
  induction entries generalizing n with
  | nil => cases h
  | cons entry rest ih =>
      rcases List.mem_cons.1 h with rfl | h
      · exact ⟨[], rest, rfl, rfl⟩
      · obtain ⟨before, after, rfl, horder⟩ := ih h
        refine ⟨entry :: before, after, rfl, ?_⟩
        rw [horder, List.length_cons, Nat.add_right_comm, Nat.add_assoc]

theorem pairwise_order_numbered (n : Nat) (entries : List (List Crossing × BuiltPath μ)) :
    (numbered n entries).Pairwise fun a b => a.order < b.order := by
  induction entries generalizing n with
  | nil => exact .nil
  | cons entry rest ih =>
      refine .cons ?_ (ih (n + 1))
      intro k hk
      obtain ⟨before, _, _, horder⟩ := exists_entries_eq_of_mem_numbered hk
      rw [horder, Nat.add_assoc]
      exact Nat.lt_add_of_pos_right (Nat.add_pos_left Nat.one_pos _)

end KeptPath

namespace DistinctPaths

open KeptPath (numbered)

variable {κ μ : Type}

def kept (d : DistinctPaths κ μ) : List (KeptPath μ) := d.buckets.values.flatten

/-- What an offer makes of a bucket. -/
inductive Offered (new : KeptPath μ) (bucket : List (KeptPath μ)) :
    List (KeptPath μ) → Verdict μ → Prop
  | added (hnone : ∀ k ∈ bucket, k.links ≠ new.links) : Offered new bucket (bucket ++ [new]) .added
  | replaced (before after : List (KeptPath μ)) {old : KeptPath μ}
      (hbucket : bucket = before ++ old :: after) (hlinks : old.links = new.links)
      (hlt : old.path.expiration < new.path.expiration) :
      Offered new bucket (before ++ { old with path := new.path } :: after) (.replaced old.path)
  | discarded {old : KeptPath μ} (hold : old ∈ bucket) (hlinks : old.links = new.links)
      (hle : new.path.expiration ≤ old.path.expiration) : Offered new bucket bucket .discarded

theorem Offered.cons {new first : KeptPath μ} {bucket next : List (KeptPath μ)}
    {verdict : Verdict μ} (hfirst : first.links ≠ new.links) (h : Offered new bucket next verdict) :
    Offered new (first :: bucket) (first :: next) verdict := by
  cases h with
  | added hnone => exact .added (List.forall_mem_cons.2 ⟨hfirst, hnone⟩)
  | replaced before after hbucket hlinks hlt =>
      rw [hbucket]
      exact .replaced (first :: before) after rfl hlinks hlt
  | discarded hold hlinks hle => exact .discarded (List.mem_cons_of_mem first hold) hlinks hle

theorem offered_offer (new : KeptPath μ) (bucket : List (KeptPath μ)) :
    Offered new bucket (offer new bucket).1 (offer new bucket).2 := by
  induction bucket with
  | nil => exact .added fun _ hk => absurd hk List.not_mem_nil
  | cons first rest ih =>
      rw [offer]
      split_ifs with hlinks hlt
      · exact ih.cons hlinks
      · exact .replaced [] rest rfl (not_not.1 hlinks) hlt
      · exact .discarded List.mem_cons_self (not_not.1 hlinks) (Int.not_lt.1 hlt)

theorem get?_of_mem_numbered {m : Ledger μ} {k : KeptPath μ} (h : k ∈ numbered 0 m.entries) :
    m.get? k.links = some k.path := by
  obtain ⟨before, after, hentries, _⟩ := KeptPath.exists_entries_eq_of_mem_numbered h
  exact OrderedMap.get?_of_entries_eq hentries

theorem perm_exchange {α : Type} {a b : α} {before after front back : List α}
    (h : (before ++ a :: after).Perm (front ++ a :: back)) :
    (before ++ b :: after).Perm (front ++ b :: back) := by
  have hrest : (before ++ after).Perm (front ++ back) :=
    (List.perm_middle.symm.trans (h.trans List.perm_middle)).cons_inv
  exact List.perm_middle.trans ((hrest.cons b).trans List.perm_middle.symm)

/-- What an offer makes of a bucket, it makes of the ledger. -/
theorem Offered.perm {m : Ledger μ} {new : KeptPath μ} {bucket next rest : List (KeptPath μ)}
    {verdict : Verdict μ} (h : Offered new bucket next verdict)
    (hrest : ∀ k ∈ rest, k.links ≠ new.links) (hplace : new.order = m.entries.length)
    (hkept : (bucket ++ rest).Perm (numbered 0 m.entries)) :
    (next ++ rest).Perm (numbered 0 (m.record new.links new.path).entries) := by
  cases h with
  | added hnone =>
      have hget : m.get? new.links = none := by
        rw [OrderedMap.get?_eq_none_iff, OrderedMap.keys, ← KeptPath.map_links_numbered 0]
        intro hmem
        obtain ⟨k, hk, hlinks⟩ := List.mem_map.1 hmem
        rcases List.mem_append.1 (hkept.mem_iff.2 hk) with hk | hk
        · exact hnone k hk hlinks
        · exact hrest k hk hlinks
      rw [Ledger.record_of_get?_eq_none hget, OrderedMap.entries_insert_of_get?_eq_none hget,
        KeptPath.numbered_append, Nat.zero_add, ← hplace, List.append_assoc]
      exact (List.perm_append_comm.append_left bucket).trans
        ((List.append_assoc bucket rest [new]).symm ▸ hkept.append_right [new])
  | @replaced before after old hbucket hlinks hlt =>
      have hold : old ∈ numbered 0 m.entries := by
        rw [← hkept.mem_iff, hbucket]
        exact List.mem_append_left _ (List.mem_append_right _ List.mem_cons_self)
      obtain ⟨front, back, hentries, horder⟩ := KeptPath.exists_entries_eq_of_mem_numbered hold
      -- the new path takes the number of the old one, which is the place of its entry
      have hget := OrderedMap.get?_of_entries_eq hentries
      have hnext := OrderedMap.entries_insert_of_entries_eq (w := new.path) hentries
      rw [hentries, KeptPath.numbered_middle, ← horder, hbucket, List.append_assoc,
        List.cons_append] at hkept
      rw [hlinks] at hget hnext
      rw [Ledger.record_of_lt hget hlt, hnext, KeptPath.numbered_middle, ← horder, ← hlinks,
        List.append_assoc, List.cons_append]
      exact perm_exchange hkept
  | @discarded old hold hlinks hle =>
      have hget := get?_of_mem_numbered (hkept.mem_iff.1 (List.mem_append_left rest hold))
      rw [hlinks] at hget
      rw [Ledger.record_of_le hget hle]
      exact hkept

theorem Offered.size_add {new : KeptPath μ} {bucket next : List (KeptPath μ)}
    {verdict : Verdict μ} (size : Nat) : Offered new bucket next verdict →
    (match verdict with | .added => size + 1 | _ => size) + bucket.length
      = size + next.length := by
  intro h
  cases h with
  | added => rw [List.length_append, List.length_singleton, Nat.add_right_comm, Nat.add_assoc]
  | replaced before after hbucket =>
      rw [hbucket, List.length_append, List.length_append, List.length_cons, List.length_cons]
  | discarded => rfl

theorem Offered.hash_links {new k : KeptPath μ} {bucket next : List (KeptPath μ)}
    {verdict : Verdict μ} {hash : List Crossing → κ} (h : Offered new bucket next verdict)
    (hbucket : ∀ k ∈ bucket, hash k.links = hash new.links) (hk : k ∈ next) :
    hash k.links = hash new.links := by
  cases h with
  | added =>
      rcases List.mem_append.1 hk with hk | hk
      · exact hbucket k hk
      · rw [List.mem_singleton.1 hk]
  | replaced before after hsplit hlinks =>
      rw [hsplit] at hbucket
      rcases List.mem_append.1 hk with hk | hk
      · exact hbucket k (List.mem_append_left _ hk)
      · rcases List.mem_cons.1 hk with rfl | hk
        · exact congrArg hash hlinks
        · exact hbucket k (List.mem_append_right _ (List.mem_cons_of_mem _ hk))
  | discarded => exact hbucket k hk

variable [DecidableEq κ] {hash : List Crossing → κ} {d : DistinctPaths κ μ} {m : Ledger μ}

def bucketOf (d : DistinctPaths κ μ) (key : κ) : List (KeptPath μ) := (d.buckets.get? key).getD []

theorem size_addCrossing (hash : List Crossing → κ) (d : DistinctPaths κ μ)
    (links : List Crossing) (path : BuiltPath μ) :
    (d.addCrossing hash links path).1.size + (d.bucketOf (hash links)).length
      = d.size + (offer ⟨d.size, links, path⟩ (d.bucketOf (hash links))).1.length :=
  Offered.size_add d.size (offered_offer ⟨d.size, links, path⟩ (d.bucketOf (hash links)))

/-- The buckets hold the entries of a ledger. -/
structure Represents (hash : List Crossing → κ) (d : DistinctPaths κ μ) (m : Ledger μ) : Prop where
  size_eq : d.size = m.entries.length
  kept_perm : d.kept.Perm (numbered 0 m.entries)
  home : ∀ key, ∀ k ∈ d.bucketOf key, hash k.links = key

theorem represents_empty (hash : List Crossing → κ) :
    Represents hash ({} : DistinctPaths κ μ) .empty :=
  ⟨rfl, .nil, fun _ _ hk => absurd hk List.not_mem_nil⟩

/-- An offer to the buckets is an offer to the ledger. -/
theorem Represents.addCrossing (h : Represents hash d m) (links : List Crossing)
    (path : BuiltPath μ) :
    Represents hash (d.addCrossing hash links path).1 (m.record links path) := by
  obtain ⟨rest, (hkept : d.kept.Perm (d.bucketOf (hash links) ++ rest)), hrest, hinsert⟩ :=
    d.buckets.exists_rest (hash links)
  have hoffered := offered_offer ⟨d.size, links, path⟩ (d.bucketOf (hash links))
  -- a path in another bucket has another hash, hence other links
  have hother : ∀ k ∈ rest, k.links ≠ links := by
    intro k hk
    obtain ⟨other, hne, hk⟩ := hrest k hk
    rintro rfl
    exact hne (h.home other k hk).symm
  have hbefore := hkept.symm.trans h.kept_perm
  have hafter : (_ ++ rest).Perm (numbered 0 (m.record links path).entries) :=
    hoffered.perm hother h.size_eq hbefore
  refine ⟨?_, (hinsert _).trans hafter, ?_⟩
  · have hsize := size_addCrossing hash d links path
    have hlength := hbefore.length_eq
    have hlength' := hafter.length_eq
    rw [List.length_append, KeptPath.length_numbered, ← h.size_eq] at hlength
    rw [List.length_append, KeptPath.length_numbered] at hlength'
    omega
  · intro key k hk
    rw [bucketOf] at hk
    change k ∈ ((d.buckets.insert (hash links) _).get? key).getD [] at hk
    rw [OrderedMap.get?_insert] at hk
    split_ifs at hk with hkey
    · rw [← hkey]
      exact hoffered.hash_links (h.home (hash links)) hk
    · exact h.home key k hk

theorem Represents.mergeSort_kept (h : Represents hash d m) :
    (d.kept.mergeSort fun a b => a.order ≤ b.order) = numbered 0 m.entries := by
  have horder := KeptPath.pairwise_order_numbered 0 m.entries
  have hperm := (List.mergeSort_perm d.kept fun a b => a.order ≤ b.order).trans h.kept_perm
  have hplaces : ((numbered 0 m.entries).map (·.order)).Nodup :=
    List.pairwise_map.2 (horder.imp Nat.ne_of_lt)
  refine List.Perm.eq_of_pairwise ?_ (Sorting.pairwise_mergeSort (·.order) d.kept)
    (horder.imp Nat.le_of_lt) hperm
  intro a b ha hb hab hba
  exact List.inj_on_of_nodup_map hplaces (hperm.mem_iff.1 ha) hb (Nat.le_antisymm hab hba)

/-- The kept paths are those of the ledger, in its order. -/
theorem Represents.paths_eq (h : Represents hash d m) : d.paths = m.values := by
  rw [paths]
  change List.map _ (d.kept.mergeSort _) = _
  rw [h.mergeSort_kept, KeptPath.map_path_numbered]
  rfl

/-- The path of some links stands in the bucket of their hash. -/
theorem Represents.get?_eq_some_iff (h : Represents hash d m) {links : List Crossing}
    {path : BuiltPath μ} : m.get? links = some path ↔
      ∃ k ∈ d.bucketOf (hash links), k.links = links ∧ k.path = path := by
  obtain ⟨rest, (hkept : d.kept.Perm (d.bucketOf (hash links) ++ rest)), hrest, _⟩ :=
    d.buckets.exists_rest (hash links)
  have hmem {k : KeptPath μ} : k ∈ numbered 0 m.entries ↔ k ∈ d.bucketOf (hash links) ++ rest :=
    (h.kept_perm.symm.trans hkept).mem_iff
  constructor
  · intro hget
    obtain ⟨before, after, hentries⟩ := OrderedMap.exists_append_of_lookup hget
    have hk : (⟨0 + before.length, links, path⟩ : KeptPath μ) ∈ numbered 0 m.entries := by
      rw [hentries, KeptPath.numbered_middle]
      exact List.mem_append_right _ List.mem_cons_self
    rcases List.mem_append.1 (hmem.1 hk) with hk | hk
    · exact ⟨_, hk, rfl, rfl⟩
    · obtain ⟨other, hne, hk⟩ := hrest _ hk
      exact absurd (h.home other _ hk).symm hne
  · rintro ⟨k, hk, rfl, rfl⟩
    exact get?_of_mem_numbered (hmem.2 (List.mem_append_left rest hk))

/-- An offered path is kept exactly if it lasts longer than the path of its links, if there is
one. -/
theorem Represents.isKept_addCrossing_iff (h : Represents hash d m) (links : List Crossing)
    (path : BuiltPath μ) : (d.addCrossing hash links path).2.isKept = true ↔
      ∀ old, m.get? links = some old → old.expiration < path.expiration := by
  have hoffered := offered_offer ⟨d.size, links, path⟩ (d.bucketOf (hash links))
  change (offer ⟨d.size, links, path⟩ (d.bucketOf (hash links))).2.isKept = true ↔ _
  generalize offer ⟨d.size, links, path⟩ (d.bucketOf (hash links)) = outcome at hoffered ⊢
  obtain ⟨next, verdict⟩ := outcome
  cases hoffered with
  | added hnone =>
      refine iff_of_true rfl fun old hget => ?_
      obtain ⟨k, hk, hlinks, _⟩ := h.get?_eq_some_iff.1 hget
      exact absurd hlinks (hnone k hk)
  | @replaced before after old hbucket hlinks hlt =>
      have hold : old ∈ d.bucketOf (hash links) := by
        rw [hbucket]
        exact List.mem_append_right _ List.mem_cons_self
      have hget := h.get?_eq_some_iff.2 ⟨old, hold, hlinks, rfl⟩
      refine iff_of_true rfl fun other hother => ?_
      rw [hget] at hother
      cases hother
      exact hlt
  | @discarded old hold hlinks hle =>
      have hget := h.get?_eq_some_iff.2 ⟨old, hold, hlinks, rfl⟩
      exact iff_of_false Bool.false_ne_true fun hlt => Int.not_lt.2 hle (hlt old.path hget)

theorem result_report (path : BuiltPath μ) (verdict : Verdict μ) :
    (report path verdict).result = .ok () := by
  cases verdict <;> rfl

/-- A path with a readable header is offered, whatever becomes of it. -/
theorem result_addLogged {path : BuiltPath μ} {links : List Crossing}
    (hlinks : interfacePairs path.raw = .ok links) :
    (d.addLogged hash path).result = .ok (d.addCrossing hash links path) := by
  have hadd : d.add hash path = .ok (d.addCrossing hash links path) := by
    rw [add, hlinks]
    rfl
  rw [addLogged, Logged.result_bind]
  change (d.add hash path >>= _) = _
  rw [hadd, Outcome.ok_bind, Logged.result_bind, result_report]
  rfl

end DistinctPaths

end PathAssembly
