import ScopeCheck.Proofs.Table.StackOfMaps

/-!
# The listings of a table

A table lists its links in the order of the statements, and the names of the current scope in the
order of the names.  Both lists are made by sorting what a map holds, and a map may give its entries
in any order.  So there are two questions about each list: is it the same whatever that order was,
and does it show the whole map?

## Why the order does not show

`Enumerates` says that a list goes through the entries of a map, each once, in some order.  The
only thing such a list is free in is the order, so a sorted one should be unique; but sorting by a
key leaves open in which order entries with equal keys come, and a sort that is not stable may
answer this differently each time.  What closes the gap is that a map has one entry for a key
(`Enumerates.nodup_keys`).  Sorted by keys that do not repeat, a list ascends strictly, and two
strictly ascending lists with the same members are the same.

That the lists of pairs inside a table are such maps is an invariant of its operations: a definition
adds a name that the scope does not have, and a link replaces the one that the statement had.  It
does not matter whether numbers are handed out twice, only that every one in the lists has a symbol
(`Furnished`).
-/

namespace ScopeCheck

/-- A list goes through the entries of a map, each once, in some order. -/
structure Enumerates {κ ν : Type} (entries : List (κ × ν)) (find? : κ → Option ν) : Prop where
  nodup : entries.Nodup
  mem_iff : ∀ key value, (key, value) ∈ entries ↔ find? key = some value

namespace Enumerates

variable {κ ν : Type} {entries listing : List (κ × ν)} {find? : κ → Option ν}

/-- Putting the entries into another order is going through them in another order. -/
theorem of_perm (h : Enumerates entries find?) (hperm : listing.Perm entries) :
    Enumerates listing find? where
  nodup := hperm.nodup_iff.mpr h.nodup
  mem_iff := fun key value => by rw [hperm.mem_iff, h.mem_iff]

/-- A map has one entry for a key. -/
theorem nodup_keys (h : Enumerates entries find?) : (entries.map Prod.fst).Nodup := by
  refine h.nodup.map_on ?_
  rintro ⟨key, value⟩ hentry ⟨other, value'⟩ hother heq
  have hfound := (h.mem_iff key value).mp hentry
  have hfound' := (h.mem_iff other value').mp hother
  cases heq
  rw [hfound] at hfound'
  rw [Option.some.inj hfound']

/-- A list of pairs with one pair for a key goes through the map that looks keys up in it. -/
theorem of_nodup_keys [BEq κ] [LawfulBEq κ] (h : (entries.map Prod.fst).Nodup) :
    Enumerates entries (entries.lookup ·) where
  nodup := h.of_map Prod.fst
  mem_iff := fun _ _ => (lookup_eq_some_iff_mem h).symm

/-- Entries that are sorted by their keys ascend strictly. -/
theorem pairwise_lt {order : Type} [LinearOrder order] {rank : κ → order}
    (hrank : rank.Injective) (h : Enumerates listing find?)
    (hsorted : listing.Pairwise fun entry later => rank entry.1 ≤ rank later.1) :
    listing.Pairwise fun entry later => rank entry.1 < rank later.1 := by
  have hkeys : listing.Pairwise fun entry later => entry.1 ≠ later.1 :=
    List.pairwise_map.mp h.nodup_keys
  exact hsorted.imp₂ (fun _ _ hle hne => lt_of_le_of_ne hle (hrank.ne hne)) hkeys

/-- **There is one list of the entries in the order of the keys.** -/
theorem eq_of_sorted {order : Type} [LinearOrder order] {rank : κ → order}
    (hrank : rank.Injective) (h : Enumerates entries find?) (h' : Enumerates listing find?)
    (hsorted : entries.Pairwise fun entry later => rank entry.1 ≤ rank later.1)
    (hsorted' : listing.Pairwise fun entry later => rank entry.1 ≤ rank later.1) :
    entries = listing := by
  have hperm : entries.Perm listing :=
    (List.perm_ext_iff_of_nodup h.nodup h'.nodup).mpr fun ⟨key, value⟩ => by
      rw [h.mem_iff, h'.mem_iff]
  refine hperm.eq_of_pairwise ?_ (h.pairwise_lt hrank hsorted) (h'.pairwise_lt hrank hsorted')
  exact fun entry later _ _ hlt hgt => absurd hlt (lt_asymm hgt)

end Enumerates

theorem StmtId.index_injective : StmtId.index.Injective := by
  rintro ⟨index⟩ ⟨other⟩ rfl
  rfl

namespace SymbolTable

variable {table : SymbolTable}

/-! ## Links -/

/-- Every statement has at most one entry among the links. -/
theorem nodup_links_after (history : List TableStep) :
    ((empty.after history).links.map Prod.fst).Nodup := by
  induction history using List.reverseRecOn with
  | nil => exact List.nodup_nil
  | append_singleton history step ih =>
    rw [after, List.foldl_append]
    change (((empty.after history).perform step).links.map Prod.fst).Nodup
    cases step with
    | enter => exact ih
    | exit =>
      rw [perform]
      split
      · next heq =>
        obtain ⟨scope, rest, -, rfl⟩ := exit_eq_ok_iff.mp heq
        exact ih
      · exact ih
    | define symbol =>
      rw [perform, define]
      split <;> exact ih
    | link node id =>
      rw [perform, link, List.map_cons, List.nodup_cons]
      refine ⟨?_, ih.sublist (List.filter_sublist.map Prod.fst)⟩
      intro hmem
      obtain ⟨entry, hentry, heq⟩ := List.mem_map.mp hmem
      have hne := (List.mem_filter.mp hentry).2
      simp [heq] at hne

/-- The statements with an entry are those with a link. -/
theorem mem_links_iff (table : SymbolTable) (node : StmtId) :
    node ∈ table.links.map Prod.fst ↔ (table.linkedId? node).isSome := by
  rw [linkedId?, ← not_iff_not, Option.not_isSome_iff_eq_none, List.lookup_eq_none_iff,
    List.mem_map, not_exists]
  refine forall_congr' fun entry => ?_
  rw [not_and, bne_iff_ne, ne_comm]

@[simp] theorem length_linkList (table : SymbolTable) :
    table.linkList.length = table.links.length :=
  List.length_mergeSort _

theorem pairwise_linkList (table : SymbolTable) :
    table.linkList.Pairwise fun entry later => entry.1.index ≤ later.1.index :=
  pairwise_mergeSort_rank (fun entry => entry.1.index) table.links

/-- Links that ascend by their statements, and by their symbols if a statement should have several
of them. -/
def LinksSorted (listing : List (StmtId × SymbolId)) : Prop :=
  listing.Pairwise fun entry later =>
    entry.1.index < later.1.index ∨ entry.1 = later.1 ∧ entry.2.index ≤ later.2.index

instance (listing : List (StmtId × SymbolId)) : Decidable (LinksSorted listing) :=
  inferInstanceAs (Decidable (List.Pairwise _ listing))

/-- The list of the links is the map from statements to symbols, in the order of the statements. -/
structure LinksListed (table : SymbolTable) : Prop where
  ascending : table.linkList.Pairwise fun entry later => entry.1.index < later.1.index
  mem_iff : ∀ node id, (node, id) ∈ table.linkList ↔ table.linkedId? node = some id
  /-- Gone through in any order, the links are this list when they are sorted. -/
  determined : ∀ entries listing : List (StmtId × SymbolId), Enumerates entries table.linkedId? →
    listing.Perm entries → LinksSorted listing → listing = table.linkList

theorem linksListed (h : (table.links.map Prod.fst).Nodup) : table.LinksListed := by
  have hlinks : Enumerates table.links table.linkedId? := .of_nodup_keys h
  have hlist : Enumerates table.linkList table.linkedId? :=
    hlinks.of_perm (List.mergeSort_perm table.links _)
  refine ⟨hlist.pairwise_lt StmtId.index_injective table.pairwise_linkList, hlist.mem_iff, ?_⟩
  intro entries listing hentries hperm hsorted
  refine (hentries.of_perm hperm).eq_of_sorted StmtId.index_injective hlist ?_
    table.pairwise_linkList
  refine hsorted.imp ?_
  rintro entry later (hlt | ⟨heq, -⟩)
  · exact Nat.le_of_lt hlt
  · rw [heq]

/-! ## Names -/

/-- What is written if the names are gone through as in a list. -/
def dumpOf (table : SymbolTable) (listing : List (String × SymbolId)) : String :=
  String.join <| listing.filterMap fun entry =>
    (table.symbol? entry.2).map fun symbol => listingLine (entry.1, symbol)

/-- The lines of a listing are the names of the current scope with their symbols, in the order of
the names. -/
structure NamesListed (table : SymbolTable) (lines : Names) : Prop where
  ascending : Ascending lines
  mem_iff : ∀ name symbol, (name, symbol) ∈ lines ↔ table.resolveHere name = some symbol
  dump_eq : table.dump = String.join (lines.map listingLine)
  /-- Gone through in any order, the names of the scope lead to this text when they are sorted. -/
  determined : ∀ entries listing : List (String × SymbolId), Enumerates entries table.findHere? →
    listing.Perm entries → (listing.Pairwise fun entry later => entry.1 ≤ later.1) →
    table.dumpOf listing = table.dump

namespace Furnished

theorem enumerates_linesHere (h : table.Furnished) :
    Enumerates table.linesHere table.resolveHere where
  nodup := (ascending_iff.mp h.ascending_linesHere).2.of_map Prod.fst
  mem_iff := fun _ _ => h.mem_linesHere_iff

theorem enumerates_namesHere (h : table.Furnished) :
    Enumerates table.namesHere table.findHere? where
  nodup := (ascending_iff.mp h.ascending_namesHere).2.of_map Prod.fst
  mem_iff := fun _ _ => h.mem_namesHere_iff

theorem namesListed (h : table.Furnished) : table.NamesListed table.linesHere where
  ascending := h.ascending_linesHere
  mem_iff := h.enumerates_linesHere.mem_iff
  dump_eq := table.dump_eq
  determined := by
    intro entries listing hentries hperm hsorted
    have heq : listing = table.namesHere :=
      (hentries.of_perm hperm).eq_of_sorted Function.injective_id h.enumerates_namesHere hsorted
        (ascending_iff.mp h.ascending_namesHere).1
    rw [heq]
    rfl

end Furnished

/-! ## The main result -/

/-- **The listings of a table** are complete, and say nothing about the order in which entries came
into the table or are gone through.  In every table that operations on the empty one can lead to,
the list of the links ascends by the statements and shows each link once, and the listing of the
current scope has a line for every name of it, in the order of the code points of the names.  Both
are what sorting leads to, whatever order the entries are taken in.  So two tables that give the
same meaning to every name of their current scopes have the same listing. -/
theorem listings_determined (history other : List TableStep) :
    (empty.after history).LinksListed ∧
    (∃ lines, (empty.after history).NamesListed lines) ∧
    ((∀ name, (empty.after history).resolveHere name = (empty.after other).resolveHere name) →
      (empty.after history).dump = (empty.after other).dump) := by
  have hfurnished : (empty.after history).Furnished := .after .empty history
  have hother : (empty.after other).Furnished := .after .empty other
  exact ⟨linksListed (nodup_links_after history), ⟨_, hfurnished.namesListed⟩,
    hfurnished.dump_eq_dump hother⟩

/-- Two names that come into two scopes in different orders, and links that are made in no order,
one of them twice.  The links are gone through from the last statement to the first. -/
theorem listings_determined_twoOrders :
    let a : Symbol := ⟨"a", .var .int, ⟨4, 9⟩⟩
    let b : Symbol := ⟨"b", .function .bool [], ⟨12, 20⟩⟩
    let history := [.define b, .link ⟨3⟩ ⟨1⟩, .define a, .link ⟨0⟩ ⟨0⟩, .link ⟨3⟩ ⟨0⟩]
    let other := [.enter, .define a, .define b]
    Enumerates [(⟨3⟩, ⟨0⟩), (⟨0⟩, ⟨0⟩)] (empty.after history).linkedId? ∧
      [(⟨0⟩, ⟨0⟩), (⟨3⟩, ⟨0⟩)] = (empty.after history).linkList ∧
      (∀ name, (empty.after history).resolveHere name = (empty.after other).resolveHere name) ∧
      (empty.after history).dump = (empty.after other).dump ∧
      (empty.after other).dump = "a -> variable a: int\nb -> function b() -> bool\n" := by
  intro a b history other
  obtain ⟨hlinks, -, hsame⟩ := listings_determined history other
  have hentries : Enumerates [(⟨3⟩, ⟨0⟩), (⟨0⟩, ⟨0⟩)] (empty.after history).linkedId? :=
    .of_nodup_keys (by decide)
  have hstack : (empty.after history).Simulates (({} : NameStack).after history) :=
    simulates_empty.after (by decide)
  have hstack' : (empty.after other).Simulates (({} : NameStack).after other) :=
    simulates_empty.after (by decide)
  have hnames : ∀ name,
      (empty.after history).resolveHere name = (empty.after other).resolveHere name := by
    intro name
    have htop : (({} : NameStack).after history).top = (({} : NameStack).after other).top := by
      decide +kernel
    exact (hstack.top_lookup name).symm.trans (htop ▸ hstack'.top_lookup name)
  have hdump : (empty.after other).dump = "a -> variable a: int\nb -> function b() -> bool\n" := by
    rw [dump_eq, hstack'.linesHere_eq]
    decide +kernel
  refine ⟨hentries, ?_, hnames, hsame hnames, hdump⟩
  exact hlinks.determined _ _ hentries (by decide) (by decide)

end SymbolTable
end ScopeCheck
