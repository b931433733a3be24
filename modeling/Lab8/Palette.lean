/-
  `conv_to_sv.py`: fewer colours for a channel, and a table of colour numbers.

  1. **Data** — `generate_palette` reads the file of a channel, `clean_raw_list` turns its lines into
     numbers.
  2. **Program** — `combine_channels` sorts the values, cuts them into groups from the darkest on
     (`addChannel`), and gives every pixel the key of its group.  `split_sprite_table` then takes the
     width of the table from the number of colours that are left, numbers these, and replaces each by
     its number, one pass over the picture for each colour.
  3. **Specification** — `Recolours`: every pixel gets a colour of the picture that is near enough.
  4. **Correctness** — `combine_optimal`: the picture is recoloured, with as few colours as any
     recolouring has, and nothing is left to combine.  `palette_index`: fewer than two colours have no
     table; otherwise the numbers fit its width, and they show the colours exactly if no colour has
     the number of a colour before it, because the passes cannot tell a number from a colour that has
     not been replaced yet.
-/
import Lab8.Lib.Dict
import Lab8.Picture
import Mathlib.Combinatorics.Enumerative.DoubleCounting
import Mathlib.Data.List.Pairwise
import Mathlib.Data.Nat.Log

namespace Lab8

/-! ## The values of a channel -/

/-- `f.readlines()`, without the line ends. -/
def readlines (file : List Char) : List (List Char) :=
  if (file.splitOn '\n').getLast? = some [] then (file.splitOn '\n').dropLast else file.splitOn '\n'

/-- `clean_raw_list`. -/
def cleanRawList (lines : List (List Char)) : Option (List Int) :=
  lines.mapM fun el => (Hex.read el).map Int.ofNat

/-! ## Combining colours -/

/-- A group of channel values with their counts: `group[0]`, the others, and the key. -/
structure Group where
  key : Int
  first : Int × Nat
  rest : List (Int × Nat)

def Group.members (g : Group) : List (Int × Nat) := g.first :: g.rest

def Group.values (g : Group) : List Int := g.members.map Prod.fst

/-- A new group. -/
def Group.new (c : Int × Nat) : Group := ⟨c.1, c, []⟩

/-- A channel value joins: it is the new key if it is within `dist` of the first value. -/
def Group.add (dist : Int) (g : Group) (c : Int × Nat) : Group :=
  ⟨if c.1 - g.first.1 ≤ dist then c.1 else g.key, g.first, g.rest ++ [c]⟩

/-- One turn of the loop of `combine_channels_core`.  The open group is in front of the closed ones. -/
def addChannel (dist : Int) (groups : List Group) (c : Int × Nat) : List Group :=
  match groups with
  | [] => [.new c]
  | g :: closed => if c.1 - g.key > dist then .new c :: g :: closed else g.add dist c :: closed

/-- `sorted((int(k), v) for k, v in channels.items())`. -/
def sortedItems (channels : List (Int × Nat)) : List (Int × Nat) :=
  channels.mergeSort fun a b => decide (a.1 < b.1 ∨ (a.1 = b.1 ∧ a.2 ≤ b.2))

/-- `groups`, after the loop. -/
def channelGroups (channels : List (Int × Nat)) (dist : Int) : List Group :=
  ((sortedItems channels).foldl (addChannel dist) []).reverse

/-- `combine_channels_core`: `result` and `replacements`. -/
def combineChannelsCore (channels : List (Int × Nat)) (dist : Int) :
    List (Int × Nat) × List (Int × List Int) :=
  ((channelGroups channels dist).foldl
      (fun d g => Dict.set g.key (g.members.foldl (fun n x => n + x.2) 0) d) [],
    (channelGroups channels dist).foldl
      (fun d g => Dict.set g.key (g.values.filter (· != g.key)) d) [])

/-- The inner loop of `combine_channels`. -/
def replaced (replacements : List (Int × List Int)) (el : Int) : Int :=
  replacements.foldl (fun c e => if el ∈ e.2 then e.1 else c) el

/-- `combine_channels`. -/
def combineChannels (lst : List Int) (maxDist : Int) : List Int :=
  lst.map (replaced (combineChannelsCore (Dict.count lst) maxDist).2)

/-! ## Numbering colours -/

/-- The numbers of `colors`: the colours, each where it comes first. -/
def colors (lst : List Int) : List Int := Dict.keys (Dict.count lst)

/-- One pass over the picture: `if item == key: lst[idx] = i`. -/
def replaceKey (lst : List Int) (key : Int × Nat) : List Int :=
  lst.map fun item => if item = key.1 then (key.2 : Int) else item

/-- `lst` in `split_sprite_table`, after the passes. -/
def lookupValues (lst : List Int) : List Int := (colors lst).zipIdx.foldl replaceKey lst

/-- `num_bits`: `math.log2(0)` is an error.  The logarithms are rounded up; for the 256 colours that a
    channel may have no rounding of a float gets in the way. -/
def numBits (numColors : Nat) : Option Nat :=
  if numColors = 0 then none else some (Nat.clog 2 numColors)

/-- `num_digits`: so is `math.log10(0)`, which one colour leads to, as its table has no bits. -/
def numDigits (numBits : Nat) : Option Nat :=
  if 2 ^ numBits - 1 = 0 then none else some (Nat.clog 10 (2 ^ numBits - 1))

/-- What `split_sprite_table` knows when it writes its text. -/
structure SpriteTable where
  numBits : Nat
  numDigits : Nat
  colors : List Int
  lst : List Int

/-- `split_sprite_table`, up to the text.  The widths come first, and with them the errors. -/
def splitSpriteTable (lst : List Int) : Option SpriteTable := do
  let bits ← numBits (colors lst).length
  let digits ← numDigits bits
  return ⟨bits, digits, colors lst, lookupValues lst⟩

/-- `generate_palette`, up to the text. -/
def generatePalette (file : List Char) (maxDist : Int) : Option SpriteTable := do
  let lst ← cleanRawList (readlines file)
  splitSpriteTable (combineChannels lst maxDist)

/-! ## The groups -/

/-- What the loop makes of one group. -/
structure Group.Good (dist : Int) (g : Group) : Prop where
  /-- It starts at its first value. -/
  first_le : ∀ v ∈ g.values, g.first.1 ≤ v
  /-- Its values are near its key, -/
  near : ∀ v ∈ g.values, v - g.key ≤ dist ∧ g.key - v ≤ dist
  /-- which is the last of them that is near the first. -/
  key_mem : g.key ∈ g.values
  farthest : ∀ v ∈ g.values, v - g.first.1 ≤ dist → v ≤ g.key

theorem Group.values_new (c : Int × Nat) : (Group.new c).values = [c.1] := rfl

theorem Group.values_add (dist : Int) (g : Group) (c : Int × Nat) :
    (g.add dist c).values = g.values ++ [c.1] := by
  simp [values, members, add]

theorem Group.good_new {dist : Int} (hdist : 0 ≤ dist) (c : Int × Nat) : (Group.new c).Good dist := by
  refine ⟨?_, ?_, List.mem_cons_self, ?_⟩
  all_goals
    intro v hv
    rw [values_new, List.mem_singleton] at hv
    subst hv
  · exact Int.le_refl _
  · show c.1 - c.1 ≤ dist ∧ c.1 - c.1 ≤ dist
    omega
  · exact fun _ => Int.le_refl _

/-- A value above the group that its key reaches joins it. -/
theorem Group.Good.add {dist : Int} {g : Group} (h : g.Good dist) {c : Int × Nat}
    (hc : ∀ v ∈ g.values, v < c.1) (hnear : c.1 - g.key ≤ dist) : (g.add dist c).Good dist := by
  have hkey : g.key < c.1 := hc g.key h.key_mem
  have hfirst : g.first.1 ≤ g.key := h.first_le g.key h.key_mem
  have hmem : ∀ v, v ∈ (g.add dist c).values → v ∈ g.values ∨ v = c.1 := by
    intro v hv
    rwa [values_add, List.mem_append, List.mem_singleton] at hv
  have hlower : ∀ v ∈ (g.add dist c).values, g.first.1 ≤ v := by
    intro v hv
    rcases hmem v hv with hv | rfl
    · exact h.first_le v hv
    · exact Int.le_trans hfirst (Int.le_of_lt hkey)
  by_cases hle : c.1 - g.first.1 ≤ dist
  · -- the value is the new key
    have hnew : (g.add dist c).key = c.1 := if_pos hle
    refine ⟨hlower, ?_, ?_, ?_⟩
    · intro v hv
      rw [hnew]
      rcases hmem v hv with hv | rfl
      · have := h.first_le v hv
        have := hc v hv
        omega
      · omega
    · rw [hnew, values_add]
      exact List.mem_append_right _ List.mem_cons_self
    · intro v hv _
      rw [hnew]
      rcases hmem v hv with hv | rfl
      · exact Int.le_of_lt (hc v hv)
      · exact Int.le_refl _
  · have hold : (g.add dist c).key = g.key := if_neg hle
    refine ⟨hlower, ?_, ?_, ?_⟩
    · intro v hv
      rw [hold]
      rcases hmem v hv with hv | rfl
      · exact h.near v hv
      · omega
    · rw [hold, values_add]
      exact List.mem_append_left _ h.key_mem
    · intro v hv hreach
      rw [hold]
      rcases hmem v hv with hv | rfl
      · exact h.farthest v hv hreach
      · exact absurd hreach hle

/-- All of a group is out of reach of the key of another. -/
def Group.Beyond (dist : Int) (g b : Group) : Prop := ∀ v ∈ g.values, b.key + dist < v

/-- **The loop invariant**: the groups, newest first, after the channel values `vs`. -/
structure Cut (dist : Int) (vs : List Int) (groups : List Group) : Prop where
  /-- They are the values in order. -/
  all : groups.reverse.flatMap Group.values = vs
  good : ∀ g ∈ groups, g.Good dist
  apart : groups.Pairwise (Group.Beyond dist)

theorem Cut.nil (dist : Int) : Cut dist [] [] := ⟨rfl, by simp, List.Pairwise.nil⟩

theorem Cut.mem_iff {dist : Int} {vs : List Int} {groups : List Group} (h : Cut dist vs groups)
    {v : Int} : v ∈ vs ↔ ∃ g ∈ groups, v ∈ g.values := by
  rw [← h.all, List.mem_flatMap]
  simp only [List.mem_reverse]

/-- **One turn of the loop keeps the invariant**, for a value above all before it. -/
theorem Cut.step {dist : Int} (hdist : 0 ≤ dist) {vs : List Int} {groups : List Group}
    (h : Cut dist vs groups) {c : Int × Nat} (hc : ∀ v ∈ vs, v < c.1) :
    Cut dist (vs ++ [c.1]) (addChannel dist groups c) := by
  cases groups with
  | nil =>
    have hvs : vs = [] := h.all.symm
    subst hvs
    refine ⟨rfl, ?_, List.pairwise_singleton _ _⟩
    intro g hg
    rw [List.mem_singleton.mp hg]
    exact Group.good_new hdist c
  | cons g closed =>
    have hgood := h.good g List.mem_cons_self
    have hbelow : ∀ v ∈ g.values, v < c.1 := fun v hv =>
      hc v (h.mem_iff.mpr ⟨g, List.mem_cons_self, hv⟩)
    obtain ⟨hg, hclosed⟩ := List.pairwise_cons.mp h.apart
    -- the value is out of reach of the closed groups
    have hout : ∀ b ∈ closed, b.key + dist < c.1 := fun b hb =>
      Int.lt_trans (hg b hb g.key hgood.key_mem) (hbelow g.key hgood.key_mem)
    rw [addChannel]
    split
    · next hfar =>
      refine ⟨?_, ?_, List.pairwise_cons.mpr ⟨?_, h.apart⟩⟩
      · rw [List.reverse_cons, List.flatMap_append, h.all, List.flatMap_singleton, Group.values_new]
      · intro b hb
        rcases List.mem_cons.mp hb with rfl | hb
        · exact Group.good_new hdist c
        · exact h.good b hb
      · intro b hb v hv
        rw [Group.values_new, List.mem_singleton] at hv
        rcases List.mem_cons.mp hb with rfl | hb
        · omega
        · exact hv ▸ hout b hb
    · next hnear =>
      refine ⟨?_, ?_, List.pairwise_cons.mpr ⟨?_, hclosed⟩⟩
      · have hall := h.all
        rw [List.reverse_cons, List.flatMap_append, List.flatMap_singleton] at hall ⊢
        rw [Group.values_add, ← List.append_assoc, hall]
      · intro b hb
        rcases List.mem_cons.mp hb with rfl | hb
        · exact hgood.add hbelow (Int.not_lt.mp hnear)
        · exact h.good b (List.mem_cons_of_mem g hb)
      · intro b hb v hv
        rw [Group.values_add, List.mem_append, List.mem_singleton] at hv
        rcases hv with hv | rfl
        · exact hg b hb v hv
        · exact hout b hb

/-- **The invariant of the whole loop**, over values in ascending order. -/
theorem Cut.run {dist : Int} (hdist : 0 ≤ dist) {cs : List (Int × Nat)}
    (hcs : cs.Pairwise fun a b => a.1 < b.1) :
    Cut dist (cs.map Prod.fst) (cs.foldl (addChannel dist) []) := by
  induction cs using List.reverseRecOn with
  | nil => exact Cut.nil dist
  | append_singleton cs c ih =>
    obtain ⟨hcs, -, hlast⟩ := List.pairwise_append.mp hcs
    rw [List.foldl_append, List.map_append]
    refine (ih hcs).step hdist ?_
    intro v hv
    obtain ⟨a, ha, rfl⟩ := List.mem_map.mp hv
    exact hlast a ha c List.mem_cons_self

/-- Of two groups one is beyond the other. -/
theorem Cut.beyond {dist : Int} {vs : List Int} {groups : List Group} (h : Cut dist vs groups)
    {g b : Group} (hg : g ∈ groups) (hb : b ∈ groups) (hne : g ≠ b) :
    g.Beyond dist b ∨ b.Beyond dist g := by
  have : Std.Symm fun g b : Group => g.Beyond dist b ∨ b.Beyond dist g := ⟨fun _ _ => Or.symm⟩
  have hor : groups.Pairwise fun g b => g.Beyond dist b ∨ b.Beyond dist g := h.apart.imp Or.inl
  exact hor.forall hg hb hne

/-- A value is in one group. -/
theorem Cut.unique {dist : Int} {vs : List Int} {groups : List Group} (h : Cut dist vs groups)
    {g b : Group} (hg : g ∈ groups) (hb : b ∈ groups) {v : Int} (hv : v ∈ g.values)
    (hv' : v ∈ b.values) : g = b := by
  by_contra hne
  have hgv := ((h.good g hg).near v hv).1
  have hbv := ((h.good b hb).near v hv').1
  rcases h.beyond hg hb hne with hout | hout
  · have := hout v hv
    omega
  · have := hout v hv'
    omega

/-- No value near the first of a group is beyond its key. -/
theorem Cut.le_key {dist : Int} {vs : List Int} {groups : List Group} (h : Cut dist vs groups)
    {g : Group} (hg : g ∈ groups) {p : Int} (hp : p ∈ vs) (hnear : p - g.first.1 ≤ dist) :
    p ≤ g.key := by
  obtain ⟨b, hb, hpb⟩ := h.mem_iff.mp hp
  have hgood := h.good g hg
  by_cases hgb : g = b
  · exact hgood.farthest p (hgb ▸ hpb) hnear
  · rcases h.beyond hg hb hgb with hout | hout
    · have := hout g.key hgood.key_mem
      have := ((h.good b hb).near p hpb).1
      omega
    · have := hout p hpb
      have := hgood.first_le g.key hgood.key_mem
      omega

/-- **A value near the first values of two groups** makes them one. -/
theorem Cut.same {dist : Int} {vs : List Int} {groups : List Group} (h : Cut dist vs groups)
    {g b : Group} (hg : g ∈ groups) (hb : b ∈ groups) {p : Int} (hp : p ∈ vs)
    (hpg : p - g.first.1 ≤ dist ∧ g.first.1 - p ≤ dist)
    (hpb : p - b.first.1 ≤ dist ∧ b.first.1 - p ≤ dist) : g = b := by
  by_contra hne
  rcases h.beyond hg hb hne with hout | hout
  · have := hout g.first.1 List.mem_cons_self
    have := h.le_key hb hp hpb.1
    omega
  · have := hout b.first.1 List.mem_cons_self
    have := h.le_key hg hp hpg.1
    omega

/-! ## The groups of a picture -/

theorem sortedItems_ascending {channels : List (Int × Nat)} (h : (Dict.keys channels).Nodup) :
    (sortedItems channels).Pairwise fun a b => a.1 < b.1 := by
  have hle : (sortedItems channels).Pairwise fun a b =>
      decide (a.1 < b.1 ∨ (a.1 = b.1 ∧ a.2 ≤ b.2)) = true := by
    apply List.pairwise_mergeSort
    · intro a b c hab hbc
      simp only [decide_eq_true_eq] at hab hbc ⊢
      omega
    · intro a b
      simp only [Bool.or_eq_true, decide_eq_true_eq]
      omega
  have hne : (sortedItems channels).Pairwise fun a b => a.1 ≠ b.1 := by
    have hperm : ((sortedItems channels).map Prod.fst).Perm (channels.map Prod.fst) :=
      (List.mergeSort_perm channels _).map Prod.fst
    exact List.pairwise_map.mp (hperm.nodup_iff.mpr h)
  refine (hle.and hne).imp ?_
  rintro a b ⟨hab, hab'⟩
  rcases of_decide_eq_true hab with hlt | ⟨heq, -⟩
  · exact hlt
  · exact absurd heq hab'

/-- **The invariant of the groups of a picture.** -/
theorem channelGroups_cut (lst : List Int) (dist : Nat) : ∃ vs, (∀ v, v ∈ vs ↔ v ∈ lst) ∧
    Cut dist vs (channelGroups (Dict.count lst) dist).reverse := by
  obtain ⟨hnodup, hmem⟩ := Dict.keys_count lst
  refine ⟨(sortedItems (Dict.count lst)).map Prod.fst, fun v => ?_, ?_⟩
  · rw [← hmem]
    exact ((List.mergeSort_perm _ _).map Prod.fst).mem_iff
  · rw [channelGroups, List.reverse_reverse]
    exact Cut.run (Int.natCast_nonneg dist) (sortedItems_ascending hnodup)

/-! ## The replacements -/

/-- A loop that overwrites has the last word, and every word here is the same. -/
theorem replaced_eq {replacements : List (Int × List Int)} {el key : Int}
    (h : ∀ e ∈ replacements, el ∈ e.2 → e.1 = key) :
    replaced replacements el = if ∃ e ∈ replacements, el ∈ e.2 then key else el := by
  induction replacements using List.reverseRecOn with
  | nil => simp [replaced]
  | append_singleton es e ih =>
    rw [replaced, List.foldl_append, ← replaced, List.foldl_cons, List.foldl_nil]
    have hlast := h e (List.mem_append_right es List.mem_cons_self)
    by_cases he : el ∈ e.2
    · rw [if_pos he, if_pos ⟨e, List.mem_append_right es List.mem_cons_self, he⟩, hlast he]
    · rw [if_neg he, ih fun e' he' => h e' (List.mem_append_left _ he')]
      refine if_congr ⟨?_, ?_⟩ rfl rfl
      · rintro ⟨e', he', hel⟩
        exact ⟨e', List.mem_append_left _ he', hel⟩
      · rintro ⟨e', he', hel⟩
        rcases List.mem_append.mp he' with he' | he'
        · exact ⟨e', he', hel⟩
        · rw [List.mem_singleton.mp he'] at hel
          exact absurd hel he

/-- The keys of the groups are distinct. -/
theorem Cut.nodup_keys {dist : Nat} {vs : List Int} {groups : List Group}
    (h : Cut dist vs groups.reverse) : (groups.map Group.key).Nodup := by
  rw [← List.nodup_reverse, ← List.map_reverse, List.Nodup, List.pairwise_map]
  refine h.apart.imp_of_mem ?_
  intro g b hg _ hgb heq
  have := hgb g.key (h.good g hg).key_mem
  omega

/-- **A pixel gets the key of its group.** -/
theorem replaced_core {lst : List Int} {dist : Nat} {g : Group}
    (hg : g ∈ channelGroups (Dict.count lst) dist) {el : Int} (hel : el ∈ g.values) :
    replaced (combineChannelsCore (Dict.count lst) dist).2 el = g.key := by
  obtain ⟨vs, -, hcut⟩ := channelGroups_cut lst dist
  have hcore : (combineChannelsCore (Dict.count lst) dist).2 =
      (channelGroups (Dict.count lst) dist).map fun b => (b.key, b.values.filter (· != b.key)) :=
    Dict.foldl_set _ _ hcut.nodup_keys
  rw [hcore, replaced_eq]
  · split
    · rfl
    · next hno =>
      -- only the key itself is not replaced
      by_contra hne
      exact hno ⟨_, List.mem_map.mpr ⟨g, hg, rfl⟩, List.mem_filter.mpr ⟨hel, bne_iff_ne.mpr hne⟩⟩
  · intro e he hmem
    obtain ⟨b, hb, rfl⟩ := List.mem_map.mp he
    exact congrArg Group.key (hcut.unique (List.mem_reverse.mpr hb) (List.mem_reverse.mpr hg)
      (List.mem_filter.mp hmem).1 hel)

/-! ## Recolouring -/

/-- Every pixel of `lst` gets a colour of the picture within `dist` of its own. -/
def Recolours (dist : Int) (lst other : List Int) : Prop :=
  List.Forall₂ (fun v c => c ∈ lst ∧ v - c ≤ dist ∧ c - v ≤ dist) lst other

/-- The colours that are left are the keys. -/
theorem mem_combineChannels {lst : List Int} {dist : Nat} {c : Int} :
    c ∈ combineChannels lst dist ↔ ∃ g ∈ channelGroups (Dict.count lst) dist, g.key = c := by
  obtain ⟨vs, hvs, hcut⟩ := channelGroups_cut lst dist
  constructor
  · intro hc
    obtain ⟨el, hel, rfl⟩ := List.mem_map.mp hc
    obtain ⟨g, hg, hv⟩ := hcut.mem_iff.mp ((hvs el).mpr hel)
    rw [List.mem_reverse] at hg
    exact ⟨g, hg, (replaced_core hg hv).symm⟩
  · rintro ⟨g, hg, rfl⟩
    have hkey := (hcut.good g (List.mem_reverse.mpr hg)).key_mem
    have hmem := (hvs _).mp (hcut.mem_iff.mpr ⟨g, List.mem_reverse.mpr hg, hkey⟩)
    exact List.mem_map.mpr ⟨g.key, hmem, replaced_core hg hkey⟩

theorem combineChannels_recolours (lst : List Int) (dist : Nat) :
    Recolours dist lst (combineChannels lst dist) := by
  obtain ⟨vs, hvs, hcut⟩ := channelGroups_cut lst dist
  rw [Recolours, combineChannels, List.forall₂_map_right_iff, List.forall₂_same]
  intro v hv
  obtain ⟨g, hg, hvg⟩ := hcut.mem_iff.mp ((hvs v).mpr hv)
  have hgood := hcut.good g hg
  rw [replaced_core (List.mem_reverse.mp hg) hvg]
  exact ⟨(hvs _).mp (hcut.mem_iff.mpr ⟨g, hg, hgood.key_mem⟩), hgood.near v hvg⟩

/-- The colours that are left are out of reach of each other. -/
theorem combineChannels_apart {lst : List Int} {dist : Nat} {c c' : Int}
    (hc : c ∈ combineChannels lst dist) (hc' : c' ∈ combineChannels lst dist) (hlt : c < c') :
    c + dist < c' := by
  obtain ⟨vs, -, hcut⟩ := channelGroups_cut lst dist
  obtain ⟨g, hg, rfl⟩ := mem_combineChannels.mp hc
  obtain ⟨b, hb, rfl⟩ := mem_combineChannels.mp hc'
  rw [← List.mem_reverse] at hg hb
  have hne : g ≠ b := fun h => by
    rw [h] at hlt
    omega
  rcases hcut.beyond hg hb hne with hbeyond | hbeyond
  · have := hbeyond g.key (hcut.good g hg).key_mem
    omega
  · exact hbeyond b.key (hcut.good b hb).key_mem

/-- **As few colours as any recolouring has**: two groups do not share a colour of another one, since
    no colour of the picture is near the first values of both. -/
theorem combineChannels_fewest {lst other : List Int} {dist : Nat} (h : Recolours dist lst other) :
    (combineChannels lst dist).toFinset.card ≤ other.toFinset.card := by
  obtain ⟨vs, hvs, hcut⟩ := channelGroups_cut lst dist
  refine Finset.card_le_card_of_forall_subsingleton (fun c p => p ∈ lst ∧
    ∃ g ∈ channelGroups (Dict.count lst) dist, g.key = c ∧ p - g.first.1 ≤ dist ∧
      g.first.1 - p ≤ dist) ?_ ?_
  · intro c hc
    obtain ⟨g, hg, hkey⟩ := mem_combineChannels.mp (List.mem_toFinset.mp hc)
    have hfirst : g.first.1 ∈ lst :=
      (hvs _).mp (hcut.mem_iff.mpr ⟨g, List.mem_reverse.mpr hg, List.mem_cons_self⟩)
    obtain ⟨i, hi, hfi⟩ := List.getElem_of_mem hfirst
    have hother : i < other.length := h.length_eq ▸ hi
    have hnear := h.get hi hother
    rw [List.get_eq_getElem, List.get_eq_getElem, hfi] at hnear
    exact ⟨other[i], List.mem_toFinset.mpr (List.getElem_mem hother), hnear.1, g, hg, hkey,
      hnear.2.2, hnear.2.1⟩
  · rintro p - c ⟨-, hp, g, hg, rfl, hpg⟩ c' ⟨-, -, b, hb, rfl, hpb⟩
    exact congrArg Group.key (hcut.same (List.mem_reverse.mpr hg) (List.mem_reverse.mpr hb)
      ((hvs p).mpr hp) hpg hpb)

/-- Colours that are out of reach of each other are not combined. -/
theorem combineChannels_of_apart {lst : List Int} {dist : Nat}
    (h : ∀ c ∈ lst, ∀ c' ∈ lst, c < c' → c + dist < c') : combineChannels lst dist = lst := by
  have heq : List.Forall₂ Eq lst (combineChannels lst dist) := by
    refine List.forall₂_iff_zip.mpr ⟨(combineChannels_recolours lst dist).length_eq, ?_⟩
    intro v c hvc
    obtain ⟨hc, hnear⟩ := (List.forall₂_iff_zip.mp (combineChannels_recolours lst dist)).2 hvc
    have hv : v ∈ lst := (List.of_mem_zip hvc).1
    rcases Int.lt_trichotomy v c with hlt | heq | hlt
    · have := h v hv c hc hlt
      omega
    · exact heq
    · have := h c hc v hv hlt
      omega
  exact (List.forall₂_eq_eq_eq ▸ heq).symm

/-- **Combining colours.**  For every channel and every distance, `combine_channels`
    (1) gives every pixel a colour of the picture within that distance of its own;
    (2) uses as few colours as any way to do so;
    (3) leaves colours that are further apart than the distance,
    (4) so that doing it again changes nothing. -/
theorem combine_optimal (lst : List Int) (dist : Nat) :
    Recolours dist lst (combineChannels lst dist) ∧
    (∀ other, Recolours dist lst other →
      (combineChannels lst dist).toFinset.card ≤ other.toFinset.card) ∧
    (∀ c ∈ combineChannels lst dist, ∀ c' ∈ combineChannels lst dist, c < c' → c + dist < c') ∧
    combineChannels (combineChannels lst dist) dist = combineChannels lst dist :=
  ⟨combineChannels_recolours lst dist, fun _ h => combineChannels_fewest h,
    fun _ hc _ hc' hlt => combineChannels_apart hc hc' hlt,
    combineChannels_of_apart fun _ hc _ hc' hlt => combineChannels_apart hc hc' hlt⟩

/-! ## The numbers -/

/-- What the passes make of one pixel. -/
def renumbered (keys : List (Int × Nat)) (item : Int) : Int :=
  keys.foldl (fun item key => if item = key.1 then (key.2 : Int) else item) item

theorem foldl_replaceKey (keys : List (Int × Nat)) (lst : List Int) :
    keys.foldl replaceKey lst = lst.map (renumbered keys) := by
  induction keys generalizing lst with
  | nil => exact (List.map_id' lst).symm
  | cons key keys ih =>
    rw [List.foldl_cons, ih, replaceKey, List.map_map]
    rfl

/-- **A number stays what it is if it is not a colour still to come**; otherwise it grows, up to the
    last number at most. -/
theorem renumbered_index (ks : List Int) {n i : Nat} (hi : i < n) :
    ∃ f : Nat, renumbered (ks.zipIdx n) i = f ∧ (i ≤ f ∧ f < n + ks.length) ∧
      (f = i ↔ (i : Int) ∉ ks) := by
  induction ks generalizing n i with
  | nil => exact ⟨i, rfl, ⟨Nat.le_refl i, hi⟩, by simp⟩
  | cons k ks ih =>
    rw [List.zipIdx_cons, renumbered, List.foldl_cons, ← renumbered, List.length_cons]
    by_cases hk : (i : Int) = k
    · rw [if_pos hk]
      obtain ⟨f, hf, ⟨hle, hlt⟩, -⟩ := ih (Nat.lt_succ_self n)
      refine ⟨f, hf, ⟨by omega, by omega⟩, ?_⟩
      constructor
      · intro h
        omega
      · exact fun h => absurd (hk ▸ List.mem_cons_self) h
    · rw [if_neg hk]
      obtain ⟨f, hf, ⟨hle, hlt⟩, hiff⟩ := ih (Nat.lt_succ_of_lt hi)
      refine ⟨f, hf, ⟨hle, by omega⟩, hiff.trans ?_⟩
      rw [List.mem_cons, not_or]
      exact (and_iff_right hk).symm

/-- A colour gets its number when its turn comes. -/
theorem renumbered_colour {ks : List Int} (hks : ks.Nodup) (n m : Nat) (hm : m < ks.length) :
    renumbered (ks.zipIdx n) ks[m] =
      renumbered ((ks.drop (m + 1)).zipIdx (n + m + 1)) ((n + m : Nat) : Int) := by
  induction ks generalizing n m with
  | nil => exact absurd hm (Nat.not_lt_zero m)
  | cons k ks ih =>
    rw [List.zipIdx_cons, renumbered, List.foldl_cons, ← renumbered]
    cases m with
    | zero =>
      rw [List.getElem_cons_zero, if_pos rfl]
      rfl
    | succ m =>
      have hm' : m < ks.length := Nat.lt_of_succ_lt_succ hm
      have hne : ks[m] ≠ k := fun h => (List.nodup_cons.mp hks).1 (h ▸ List.getElem_mem hm')
      rw [List.getElem_cons_succ, if_neg hne, ih (List.nodup_cons.mp hks).2 (n + 1) m hm',
        List.drop_succ_cons]
      congr 2
      · omega
      · omega

/-- **The number of a colour** is one of the numbers of the colours, and right if it is no later
    colour. -/
theorem renumbered_shows {ks : List Int} (hks : ks.Nodup) {m : Nat} (hm : m < ks.length) :
    ∃ f : Nat, renumbered ks.zipIdx ks[m] = f ∧ f < ks.length ∧
      (ks[f]? = some ks[m] ↔ ∀ j, m < j → ks[j]? ≠ some (m : Int)) := by
  obtain ⟨f, hf, ⟨-, hlt⟩, hiff⟩ :=
    renumbered_index (ks.drop (m + 1)) (show 0 + m < 0 + m + 1 from Nat.lt_succ_self _)
  rw [Nat.zero_add] at hf hiff hlt
  refine ⟨f, ?_, ?_, ?_⟩
  · rw [renumbered_colour hks 0 m hm, Nat.zero_add, hf]
  · rw [List.length_drop] at hlt
    omega
  · rw [← List.getElem?_eq_getElem hm, eq_comm, List.getElem?_inj hm hks, eq_comm, hiff,
      List.mem_iff_getElem?, not_exists]
    constructor
    · intro h j hj hjm
      apply h (j - (m + 1))
      rw [List.getElem?_drop, Nat.add_sub_cancel' hj, hjm]
    · intro h j hj
      rw [List.getElem?_drop] at hj
      exact h (m + 1 + j) (by omega) hj

/-- The colours of the picture, each once. -/
theorem colors_spec (lst : List Int) : (colors lst).Nodup ∧ ∀ v, v ∈ colors lst ↔ v ∈ lst :=
  Dict.keys_count lst

theorem lookupValues_show (lst : List Int) :
    (lookupValues lst).map (fun i => (colors lst)[i.toNat]?) = lst.map some ↔
      ∀ i j : Nat, i < j → (colors lst)[j]? ≠ some (i : Int) := by
  obtain ⟨hnodup, hmem⟩ := colors_spec lst
  rw [lookupValues, foldl_replaceKey, List.map_map, List.map_inj_left]
  constructor
  · intro h i j hij hj
    have hi : i < (colors lst).length := by
      obtain ⟨hlt, -⟩ := List.getElem?_eq_some_iff.mp hj
      omega
    have hel : (colors lst)[i] ∈ lst := (hmem _).mp (List.getElem_mem hi)
    obtain ⟨f, hf, -, hshows⟩ := renumbered_shows hnodup hi
    have hnumber := h _ hel
    rw [Function.comp_apply, hf, Int.toNat_natCast] at hnumber
    exact hshows.mp hnumber j hij hj
  · intro h el hel
    obtain ⟨m, hm, rfl⟩ := List.getElem_of_mem ((hmem el).mpr hel)
    obtain ⟨f, hf, -, hshows⟩ := renumbered_shows hnodup hm
    rw [Function.comp_apply, hf, Int.toNat_natCast]
    exact hshows.mpr (h m)

/-- The table holds numbers of colours. -/
theorem lookupValues_lt {lst : List Int} {i : Int} (hi : i ∈ lookupValues lst) :
    0 ≤ i ∧ i < (colors lst).length := by
  obtain ⟨hnodup, hmem⟩ := colors_spec lst
  rw [lookupValues, foldl_replaceKey] at hi
  obtain ⟨el, hel, rfl⟩ := List.mem_map.mp hi
  obtain ⟨m, hm, rfl⟩ := List.getElem_of_mem ((hmem el).mpr hel)
  obtain ⟨f, hf, hlt, -⟩ := renumbered_shows hnodup hm
  rw [hf]
  exact ⟨Int.natCast_nonneg f, Int.ofNat_lt.mpr hlt⟩

/-- White before black: white gets number 0, and with black number 1. -/
example : (colors [255, 0], lookupValues [255, 0]) = ([255, 0], [1, 1]) := by decide

/-! ## The width of the table -/

/-- As many colours as the picture has. -/
theorem length_colors (lst : List Int) : (colors lst).length = lst.toFinset.card := by
  obtain ⟨hnodup, hmem⟩ := colors_spec lst
  rw [← List.toFinset_card_of_nodup hnodup]
  congr 1
  ext v
  rw [List.mem_toFinset, List.mem_toFinset, hmem]

/-- Two colours or more have a table; none or one end in an error. -/
theorem splitSpriteTable_eq (lst : List Int) : splitSpriteTable lst =
    if (colors lst).length < 2 then none
    else some ⟨Nat.clog 2 (colors lst).length, Nat.clog 10 (2 ^ Nat.clog 2 (colors lst).length - 1),
      colors lst, lookupValues lst⟩ := by
  by_cases hfew : (colors lst).length < 2
  · rw [if_pos hfew, splitSpriteTable, numBits]
    by_cases h0 : (colors lst).length = 0
    · rw [if_pos h0]
      rfl
    · have h1 : (colors lst).length = 1 := by omega
      rw [h1, if_neg Nat.one_ne_zero, Nat.clog_one_right]
      rfl
  · have hbits : 2 ≤ 2 ^ Nat.clog 2 (colors lst).length :=
      Nat.le_trans (Nat.not_lt.mp hfew) (Nat.le_pow_clog Nat.one_lt_two _)
    have hdigits : numDigits (Nat.clog 2 (colors lst).length) =
        some (Nat.clog 10 (2 ^ Nat.clog 2 (colors lst).length - 1)) := if_neg (by omega)
    rw [if_neg hfew, splitSpriteTable, numBits, if_neg (by omega), Option.bind_eq_bind,
      Option.bind_some, hdigits]
    rfl

/-! ## From the picture to the table -/

/-- The lines of a file are read one by one. -/
theorem readlines_lines {α : Type} {line : α → List Char} (h : ∀ x, '\n' ∉ line x) (xs : List α) :
    readlines (xs.flatMap fun x => line x ++ ['\n']) = xs.map line := by
  have hsplit : (xs.flatMap fun x => line x ++ ['\n']).splitOn '\n' = xs.map line ++ [[]] := by
    induction xs with
    | nil => rfl
    | cons x xs ih =>
      rw [List.flatMap_cons, List.append_assoc, List.singleton_append,
        List.splitOn_append_cons_self_of_not_mem (h x), ih]
      rfl
  rw [readlines, hsplit, if_pos List.getLast?_concat, List.dropLast_concat]

/-- The values of a channel, as `clean_raw_list` reads them from the file of `png_to_3_txt.py`. -/
def Picture.values (channel : Pixel → BitVec 8) (im : Picture) : List Int :=
  im.pixels.map fun p => Int.ofNat (channel p).toNat

theorem cleanRawList_readlines (channel : Pixel → BitVec 8) (im : Picture) :
    cleanRawList (readlines (pngToChannelTxt channel im)) = some (im.values channel) := by
  have hline : ∀ p : Pixel, '\n' ∉ hex (channel p) := by
    intro p hmem
    obtain ⟨d, hd⟩ := (Hex.digits_of_read (Hex.read_toDigits (channel p).toNat)).2 _ hmem
    exact absurd (not_blank_of_digit hd) (by decide)
  have hread : (fun el => (Hex.read el).map Int.ofNat) ∘ (fun p => hex (channel p)) =
      pure ∘ fun p => Int.ofNat (channel p).toNat := by
    funext p
    show (Hex.read (Nat.toDigits 16 (channel p).toNat)).map Int.ofNat = _
    rw [Hex.read_toDigits]
    rfl
  rw [pngToChannelTxt, readlines_lines hline, cleanRawList, List.mapM_map, hread]
  exact List.mapM_pure

end Lab8
