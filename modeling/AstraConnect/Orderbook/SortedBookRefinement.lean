import AstraConnect.Orderbook.LevelMap
import AstraConnect.Orderbook.SortedBookInvariant

set_option autoImplicit false

/-! # A side of the book is a finite map

`toMap` is the map from ticks to entries that a book stands for. `update_spec` says that `update`
refuses a level exactly when the map has no room for it, that a refused level changes nothing, and
that any other call changes the map at one tick.
-/

namespace AstraConnect.Orderbook

open Scan Containers

namespace SortedBook

variable {IsBid : Bool} {b c : SortedBook IsBid}

/-! ## The map a book stands for -/

def toMap (b : SortedBook IsBid) : LevelMap :=
  (b.located.map (fun p => (⟨p.1, b.entries p.2⟩ : Σ _ : Int, Entry))).toFinmap

theorem lookup_toMap (hl : Layout b) {t : Int} {e : Entry} :
    b.toMap.lookup t = some e ↔ ∃ s, (t, s) ∈ b.located ∧ b.entries s = e := by
  have hnd : (b.located.map (fun p => (⟨p.1, b.entries p.2⟩ : Σ _ : Int, Entry))).NodupKeys := by
    rw [List.NodupKeys, List.keys, List.map_map]
    exact nodup_ticks hl
  rw [toMap, Finmap.dlookup_list_toFinmap, ← Option.mem_def, List.mem_dlookup_iff hnd, List.mem_map]
  constructor
  · rintro ⟨⟨t', s⟩, hm, he⟩
    obtain ⟨rfl, rfl⟩ : t' = t ∧ b.entries s = e := by simpa using he
    exact ⟨s, hm, rfl⟩
  · rintro ⟨s, hm, rfl⟩
    exact ⟨(t, s), hm, rfl⟩

theorem mem_toMap (hl : Layout b) {t : Int} : t ∈ b.toMap ↔ ∃ s, (t, s) ∈ b.located := by
  rw [Finmap.mem_iff]
  constructor
  · rintro ⟨e, he⟩
    obtain ⟨s, hs, _⟩ := (lookup_toMap hl).mp he
    exact ⟨s, hs⟩
  · rintro ⟨s, hs⟩
    exact ⟨b.entries s, (lookup_toMap hl).mpr ⟨s, hs, rfl⟩⟩

theorem keys_toMap (hl : Layout b) : b.toMap.keys = (b.located.map Prod.fst).toFinset := by
  ext t
  rw [Finmap.mem_keys, mem_toMap hl, List.mem_toFinset, List.mem_map]
  constructor
  · rintro ⟨s, hs⟩
    exact ⟨(t, s), hs, rfl⟩
  · rintro ⟨⟨t', s⟩, hs, rfl⟩
    exact ⟨s, hs⟩

theorem card_toMap (hl : Layout b) : b.toMap.keys.card = b.located.length := by
  rw [keys_toMap hl, List.toFinset_card_of_nodup (nodup_ticks hl), List.length_map]

/-- The blocks in use are those of the levels. -/
theorem blockIds_toMap (h : Inv b) : b.toMap.blockIds = (b.members.map b.idOf).toFinset := by
  ext id
  rw [LevelMap.blockIds, Finset.mem_image, List.mem_toFinset, List.mem_map]
  constructor
  · rintro ⟨t, ht, rfl⟩
    obtain ⟨s, hs⟩ := (mem_toMap h.layout).mp (Finmap.mem_keys.mp ht)
    obtain ⟨level, hf, _⟩ := (mem_located h.layout).mp hs
    obtain ⟨hm, hid⟩ := h.layout.findBlock_eq_some.mp hf
    exact ⟨level, hm, hid⟩
  · rintro ⟨level, hm, rfl⟩
    -- a block in use has a level, at some offset
    have hne : (b.blocks level).offsets ≠ [] := by
      rw [Ne, ← PriceLevel.empty_iff, h.used_nonempty level hm]
      decide
    obtain ⟨o, ho⟩ := List.exists_mem_of_ne_nil _ hne
    refine ⟨b.idOf level * 128 + (o : Nat), Finmap.mem_keys.mpr ((mem_toMap h.layout).mpr ?_),
      blockOf_add (PriceLevel.mem_offsets.mp ho).1⟩
    exact ⟨_, List.mem_flatMap.mpr ⟨level, hm, List.mem_map.mpr ⟨o, ho, rfl⟩⟩⟩

theorem card_blockIds (h : Inv b) : b.toMap.blockIds.card = b.members.length := by
  rw [blockIds_toMap h, List.toFinset_card_of_nodup h.layout.nodup_ids, List.length_map]

theorem mem_blockIds (h : Inv b) {blockId : Int} :
    blockId ∈ b.toMap.blockIds ↔ b.findBlock blockId ≠ none := by
  rw [blockIds_toMap h, List.mem_toFinset, List.mem_map, Ne, h.layout.findBlock_eq_none]
  constructor
  · rintro ⟨level, hm, hid⟩ hall
    exact hall level hm hid
  · intro hall
    by_contra hnone
    exact hall (fun level hm hid => hnone ⟨level, hm, hid⟩)

/-! ## How changes show in the map -/

theorem toMap_of_remove (hb : Layout b) (hc : Layout c) {t : Int} {s : Nat}
    (hl : b.located.Perm ((t, s) :: c.located)) (he : c.entries = b.entries) :
    c.toMap = b.toMap.erase t := by
  have hnd := (hl.map Prod.fst).nodup_iff.mp (nodup_ticks hb)
  rw [List.map_cons, List.nodup_cons] at hnd
  refine Finmap.ext_lookup (fun t' => ?_)
  rcases eq_or_ne t' t with rfl | hne
  · rw [Finmap.lookup_erase, Finmap.lookup_eq_none, mem_toMap hc]
    rintro ⟨s', hs'⟩
    exact hnd.1 (List.mem_map.mpr ⟨(t', s'), hs', rfl⟩)
  · rw [Finmap.lookup_erase_ne hne]
    refine Option.ext (fun e => ?_)
    rw [lookup_toMap hc, lookup_toMap hb, he]
    refine exists_congr (fun s' => ?_)
    rw [hl.mem_iff, List.mem_cons, Prod.mk.injEq]
    simp [hne]

theorem toMap_of_insert (hb : Layout b) (hc : Layout c) {t : Int} {s : Nat} {e : Entry}
    (hs : s ∉ b.located.map Prod.snd) (hl : c.located.Perm ((t, s) :: b.located))
    (he : c.entries = Function.update b.entries s e) : c.toMap = b.toMap.insert t e := by
  refine Finmap.ext_lookup (fun t' => ?_)
  rcases eq_or_ne t' t with rfl | hne
  · rw [Finmap.lookup_insert, lookup_toMap hc]
    refine ⟨s, hl.mem_iff.mpr (List.mem_cons_self ..), ?_⟩
    rw [he, Function.update_self]
  · rw [Finmap.lookup_insert_of_ne _ hne]
    refine Option.ext (fun e' => ?_)
    rw [lookup_toMap hc, lookup_toMap hb, he]
    refine exists_congr (fun s' => ?_)
    rw [hl.mem_iff, List.mem_cons, Prod.mk.injEq]
    constructor
    · rintro ⟨⟨rfl, _⟩ | hm, hu⟩
      · exact absurd rfl hne
      · rw [Function.update_of_ne] at hu
        · exact ⟨hm, hu⟩
        · rintro rfl
          exact hs (List.mem_map.mpr ⟨(t', s'), hm, rfl⟩)
    · rintro ⟨hm, rfl⟩
      refine ⟨Or.inr hm, Function.update_of_ne ?_ _ _⟩
      rintro rfl
      exact hs (List.mem_map.mpr ⟨(t', s'), hm, rfl⟩)

/-! ## Each way through `update`

An accepted call rewrites an entry, adds a level or removes one; a refused call has found no free
slot or no free block. Each way has one lemma, with what it does to the map. -/

theorem inv_assignValues (h : Inv b) (slot : Nat) (price volume : Int) :
    Inv (b.assignValues slot price volume) :=
  ⟨⟨h.layout.of_ids rfl rfl rfl rfl (fun _ _ => rfl), h.blocks_perm, h.slots_perm, h.free_empty⟩,
    h.used_nonempty⟩

/-- Rewriting the entry of a level that exists. -/
theorem toMap_assignValues (h : Inv b) {t : Int} {s : Nat} (hs : (t, s) ∈ b.located)
    (price volume : Int) :
    (b.assignValues s price volume).toMap = b.toMap.insert t ⟨price, volume⟩ := by
  refine Finmap.ext_lookup (fun t' => ?_)
  have hloc : (b.assignValues s price volume).located = b.located := rfl
  rcases eq_or_ne t' t with rfl | hne
  · rw [Finmap.lookup_insert, lookup_toMap (inv_assignValues h s price volume).layout]
    exact ⟨s, hs, Function.update_self _ _ _⟩
  · rw [Finmap.lookup_insert_of_ne _ hne]
    refine Option.ext (fun e' => ?_)
    rw [lookup_toMap (inv_assignValues h s price volume).layout, lookup_toMap h.layout, hloc]
    refine exists_congr (fun s' => and_congr_right (fun hm => ?_))
    -- two levels never share a slot
    have hss : s' ≠ s := by
      rintro rfl
      have := List.inj_on_of_nodup_map h.nodup_slots hm hs rfl
      exact hne (Prod.mk.inj this).1
    rw [show (b.assignValues s price volume).entries s' = _ from Function.update_of_ne hss _ _]

theorem levelAt_eq_some {tick : Int} {level : Nat} :
    b.levelAt tick = some level ↔ b.findBlock (blockOf tick) = some level ∧
      (b.blocks level).test (offsetOf tick) = true := by
  rw [levelAt, Option.filter_eq_some_iff]

theorem levelAt_eq_none (hl : Layout b) {tick : Int} : b.levelAt tick = none ↔ tick ∉ b.toMap := by
  rw [mem_toMap hl, Option.eq_none_iff_forall_ne_some]
  constructor
  · rintro h ⟨s, hs⟩
    obtain ⟨level, hf, htest, _⟩ := (mem_located hl).mp hs
    exact h level (levelAt_eq_some.mpr ⟨hf, htest⟩)
  · intro h level hat
    obtain ⟨hf, htest⟩ := levelAt_eq_some.mp hat
    exact h ⟨_, (mem_located hl).mpr ⟨level, hf, htest, rfl⟩⟩

/-- The slot found is that of the tick. -/
theorem mem_located_of_levelAt (hl : Layout b) {tick : Int} {level : Nat}
    (h : b.levelAt tick = some level) :
    (tick, (b.blocks level).slots (offsetOf tick)) ∈ b.located :=
  (mem_located hl).mpr ⟨level, (levelAt_eq_some.mp h).1, (levelAt_eq_some.mp h).2, rfl⟩

/-- **A new level that is let in** joins the map. -/
theorem blockFor_addLevel_spec {tick : Int} {level : Nat} (price volume : Int) (h : Inv b)
    (hnew : b.levelAt tick = none) (hfree : b.freeSlots ≠ [])
    (hb : b.blockFor (blockOf tick) = some (c, level)) :
    Inv (c.addLevel level (offsetOf tick) price volume) ∧
      (c.addLevel level (offsetOf tick) price volume).tickSize = b.tickSize ∧
      (c.addLevel level (offsetOf tick) price volume).toMap
        = b.toMap.insert tick ⟨price, volume⟩ := by
  -- the block found, or the block acquired, is in place with no level at the offset
  obtain ⟨hwf, hused, hm, hid, htest, hloc, ht, he, hf⟩ : Wf c ∧
      (∀ k ∈ c.members, k ≠ level → (c.blocks k).empty = false) ∧ level ∈ c.members ∧
      c.idOf level = blockOf tick ∧ (c.blocks level).test (offsetOf tick) = false ∧
      c.located.Perm b.located ∧ c.tickSize = b.tickSize ∧ c.entries = b.entries ∧
      c.freeSlots = b.freeSlots := by
    unfold blockFor at hb
    cases hfind : b.findBlock (blockOf tick) with
    | some found =>
        rw [hfind] at hb
        obtain ⟨rfl, rfl⟩ := Prod.mk.inj (Option.some.inj hb)
        obtain ⟨hm, hid⟩ := h.layout.findBlock_eq_some.mp hfind
        refine ⟨h.toWf, fun k hk _ => h.used_nonempty k hk, hm, hid, ?_, List.Perm.refl _, rfl,
          rfl, rfl⟩
        rw [← Bool.not_eq_true]
        intro htest
        rw [levelAt_eq_some.mpr ⟨hfind, htest⟩] at hnew
        cases hnew
    | none =>
        rw [hfind] at hb
        have ha := acquireBlock_spec h.toWf hfind hb
        refine ⟨ha.wf, ?_, ha.members.mem_iff.mpr (List.mem_cons_self ..), ha.blockId, ?_,
          ha.located, ha.tickSize, ha.entries, ha.freeSlots⟩
        · intro k hk hne
          rcases List.mem_cons.mp (ha.members.mem_iff.mp hk) with rfl | hk
          · exact absurd rfl hne
          · rw [ha.others k hk]
            exact h.used_nonempty k hk
        · rw [← Bool.not_eq_true]
          intro htest
          have := PriceLevel.mem_offsets.mpr ⟨offsetOf_lt tick, htest⟩
          rw [PriceLevel.empty_iff.mp ha.empty] at this
          cases this
  obtain ⟨slot, hslot, hinv, hadd, ht', he'⟩ := addLevel_spec price volume hwf hused hm
    (offsetOf_lt tick) htest (hf ▸ hfree)
  rw [hid, tick_eq] at hadd
  refine ⟨hinv, ht'.trans ht, ?_⟩
  have hslot' : slot ∉ b.located.map Prod.snd := fun hin => hslot ((hloc.map _).mem_iff.mpr hin)
  exact toMap_of_insert h.layout hinv.layout hslot' (hadd.trans (hloc.cons _)) (by rw [he', he])

theorem removeLevel_toMap {tick : Int} {level : Nat} (h : Inv b)
    (hat : b.levelAt tick = some level) :
    Inv (b.removeLevel level (offsetOf tick)) ∧
      (b.removeLevel level (offsetOf tick)).tickSize = b.tickSize ∧
      (b.removeLevel level (offsetOf tick)).toMap = b.toMap.erase tick := by
  obtain ⟨hf, htest⟩ := levelAt_eq_some.mp hat
  obtain ⟨hm, hid⟩ := h.layout.findBlock_eq_some.mp hf
  obtain ⟨hinv, hloc, ht, he⟩ := removeLevel_spec h hm (offsetOf_lt tick) htest
  rw [hid, tick_eq] at hloc
  exact ⟨hinv, ht, toMap_of_remove h.layout hinv.layout hloc he⟩

theorem blockFor_eq_none {blockId : Int} :
    b.blockFor blockId = none ↔ b.findBlock blockId = none ∧ b.freeBlocks = [] := by
  unfold blockFor
  cases hf : b.findBlock blockId with
  | some level => simp
  | none => simp [acquireBlock_eq_none]

/-- A level that is not in the map has no room when the slots or the blocks have run out. -/
theorem not_fits_iff (h : Inv b) {tick : Int} (hnew : b.levelAt tick = none) :
    ¬ b.toMap.Fits tick ↔
      b.freeSlots = [] ∨ b.findBlock (blockOf tick) = none ∧ b.freeBlocks = [] := by
  have hslots := h.length_located
  have hblocks := h.length_members
  have hnot := (levelAt_eq_none h.layout).mp hnew
  rw [LevelMap.Fits, card_toMap h.layout, card_blockIds h, mem_blockIds h]
  rw [← List.length_eq_zero_iff, ← List.length_eq_zero_iff]
  constructor
  · intro hno
    by_contra hcon
    rw [not_or, not_and_or] at hcon
    refine hno (Or.inr ⟨by omega, ?_⟩)
    rcases hcon.2 with hf | hb
    · exact Or.inl hf
    · exact Or.inr (by omega)
  · rintro (hs | ⟨hf, hb⟩) (hin | ⟨hlt, hroom⟩)
    · exact hnot hin
    · omega
    · exact hnot hin
    · rcases hroom with hroom | hroom
      · exact hroom hf
      · omega

/-! ## What `update` does -/

/-- **What a call of `update` does to the side.** -/
structure Updated (b : SortedBook IsBid) (price volume : Int) (c : SortedBook IsBid) (ok : Bool) :
    Prop where
  inv : Inv c
  tickSize : c.tickSize = b.tickSize
  accepted : ok = true ↔ b.toMap.Accepts (toTick b.tickSize price) volume
  applied : ok = true → c.toMap = b.toMap.setLevel (toTick b.tickSize price) price volume
  refused : ok = false → c = b

theorem update_spec (h : Inv b) (price volume : Int) :
    Updated b price volume (b.update price volume).1 (b.update price volume).2 := by
  set tick := toTick b.tickSize price with htick
  -- a removal is never refused, whether the level is there or not
  by_cases hv : volume = 0
  · have hacc : b.toMap.Accepts tick volume := Or.inl hv
    cases hat : b.levelAt tick with
    | some level =>
        have hupdate : b.update price volume = (b.removeLevel level (offsetOf tick), true) := by
          simp only [update, ← htick, if_pos hv, hat]
        obtain ⟨hinv, ht, hmap⟩ := removeLevel_toMap h hat
        rw [hupdate]
        refine ⟨hinv, ht, iff_of_true rfl hacc, fun _ => ?_, fun hf => by cases hf⟩
        rw [hmap, LevelMap.setLevel, if_pos hv]
    | none =>
        have hupdate : b.update price volume = (b, true) := by
          simp only [update, ← htick, if_pos hv, hat]
        have hnot := (levelAt_eq_none h.layout).mp hat
        rw [hupdate]
        refine ⟨h, rfl, iff_of_true rfl hacc, fun _ => ?_, fun _ => rfl⟩
        rw [LevelMap.setLevel, if_pos hv]
        refine Finmap.ext_lookup (fun t => ?_)
        rcases eq_or_ne t tick with rfl | hne
        · rw [Finmap.lookup_erase, Finmap.lookup_eq_none.mpr hnot]
        · rw [Finmap.lookup_erase_ne hne]
  · cases hat : b.levelAt tick with
    | some level =>
        have hupdate : b.update price volume
            = (b.assignValues ((b.blocks level).slots (offsetOf tick)) price volume, true) := by
          simp only [update, ← htick, if_neg hv, hat]
        have hmem := mem_located_of_levelAt h.layout hat
        have hin : tick ∈ b.toMap := (mem_toMap h.layout).mpr ⟨_, hmem⟩
        rw [hupdate]
        refine ⟨inv_assignValues h _ _ _, rfl, iff_of_true rfl (Or.inr (Or.inl hin)), fun _ => ?_,
          fun hf => by cases hf⟩
        rw [toMap_assignValues h hmem, LevelMap.setLevel, if_neg hv]
    | none =>
        have hfits := not_fits_iff h hat
        have hrefuse : ¬ b.toMap.Fits tick → Updated b price volume b false := fun hno =>
          ⟨h, rfl, iff_of_false Bool.false_ne_true (not_or.mpr ⟨hv, hno⟩), (fun hf => by cases hf),
            fun _ => rfl⟩
        -- a new level: the two capacities are tested one after the other
        by_cases hfree : b.freeSlots = []
        · have hupdate : b.update price volume = (b, false) := by
            simp only [update, ← htick, if_neg hv, hat, if_pos hfree]
          rw [hupdate]
          exact hrefuse (hfits.mpr (Or.inl hfree))
        · cases hb : b.blockFor (blockOf tick) with
          | none =>
              have hupdate : b.update price volume = (b, false) := by
                simp only [update, ← htick, if_neg hv, hat, if_neg hfree, hb]
              rw [hupdate]
              exact hrefuse (hfits.mpr (Or.inr (blockFor_eq_none.mp hb)))
          | some p =>
              obtain ⟨c, level⟩ := p
              have hupdate : b.update price volume
                  = (c.addLevel level (offsetOf tick) price volume, true) := by
                simp only [update, ← htick, if_neg hv, hat, if_neg hfree, hb]
              obtain ⟨hinv, ht, hmap⟩ := blockFor_addLevel_spec price volume h hat hfree hb
              -- having found a slot and a block, the book had room for both
              have hroom : b.toMap.Fits tick := by
                by_contra hno
                rcases hfits.mp hno with hs | hblocks
                · exact hfree hs
                · rw [blockFor_eq_none.mpr hblocks] at hb
                  cases hb
              rw [hupdate]
              refine ⟨hinv, ht, iff_of_true rfl (Or.inr hroom), fun _ => ?_, fun hf => by cases hf⟩
              rw [hmap, LevelMap.setLevel, if_neg hv]

/-- A call, refused or not, leaves the map as `tryLevel` does. -/
theorem toMap_update (h : Inv b) (e : Entry) :
    (b.update e.price e.volume).1.toMap = b.toMap.tryLevel b.tickSize e := by
  have hu := update_spec h e.price e.volume
  rw [LevelMap.tryLevel]
  by_cases ha : b.toMap.Accepts (toTick b.tickSize e.price) e.volume
  · rw [if_pos ha, hu.applied (hu.accepted.mpr ha), LevelMap.applyLevel]
  · rw [if_neg ha, hu.refused (Bool.eq_false_iff.mpr (fun ht => ha (hu.accepted.mp ht)))]

/-! ## Reading the side

`forEachBest` visits the fallback and the window in the order of the block ids. The blocks are
disjoint ranges of ticks, so the levels come in the order of the ticks. -/

/-- What a lookup returns to a caller that passes `out`. -/
def found (out : Entry) : Option Entry → Bool × Entry
  | some e => (true, e)
  | none => (false, out)

/-- **`find` is the map's lookup.** -/
theorem find_eq (hl : Layout b) (price : Int) (out : Entry) :
    b.find price out = found out (b.toMap.lookup (toTick b.tickSize price)) := by
  set tick := toTick b.tickSize price with htick
  cases hlook : b.toMap.lookup tick with
  | some e =>
      obtain ⟨s, hs, rfl⟩ := (lookup_toMap hl).mp hlook
      obtain ⟨level, hf, htest, rfl⟩ := (mem_located hl).mp hs
      simp only [find, ← htick, hf, htest, if_true, found]
  | none =>
      have hat := (levelAt_eq_none hl).mpr (Finmap.lookup_eq_none.mp hlook)
      simp only [find, ← htick]
      cases hf : b.findBlock (blockOf tick) with
      | none => rfl
      | some level =>
          have htest : ¬ (b.blocks level).test (offsetOf tick) = true := by
            intro ht
            rw [levelAt_eq_some.mpr ⟨hf, ht⟩] at hat
            cases hat
          simp only [if_neg htest, found]

/-- The members in ascending order of their ids. -/
def ascending (b : SortedBook IsBid) : List Nat :=
  b.fallback.take (b.fallbackFind b.windowBase) ++ occupied b.window WINDOW
    ++ b.fallback.drop (b.fallbackFind (b.windowBase + WINDOW))

/-- No block of the fallback lies between its two halves. -/
theorem fallbackFind_window (hl : Layout b) :
    b.fallbackFind (b.windowBase + WINDOW) = b.fallbackFind b.windowBase := by
  have hle : b.fallbackFind b.windowBase ≤ b.fallbackFind (b.windowBase + WINDOW) :=
    hl.fallback_sorted.lowerBound_mono (by omega)
  by_contra hne
  have hlt : b.fallbackFind b.windowBase < b.fallbackFind (b.windowBase + WINDOW) := by omega
  have hlen : b.fallbackFind b.windowBase < b.fallback.length :=
    lt_of_lt_of_le hlt (lowerBound_le_length _ _ _)
  have h1 : b.idOf b.fallback[b.fallbackFind b.windowBase] < b.windowBase + WINDOW :=
    lt_of_mem_take (List.mem_take_iff_getElem.mpr ⟨_, lt_min hlt hlen, rfl⟩)
  have h2 : b.windowBase ≤ b.idOf b.fallback[b.fallbackFind b.windowBase] :=
    hl.fallback_sorted.le_of_mem_drop (List.mem_drop_iff_getElem.mpr ⟨0, by
      simpa [fallbackFind] using hlen, by simp [fallbackFind]⟩)
  refine hl.fallback_outside _ (List.getElem_mem hlen) ?_
  unfold inWindow
  omega

theorem ascending_perm (hl : Layout b) : b.ascending.Perm b.members := by
  have hsplit := List.take_append_drop (b.fallbackFind b.windowBase) b.fallback
  rw [ascending, fallbackFind_window hl, members]
  nth_rewrite 3 [← hsplit]
  rw [List.append_assoc, ← List.append_assoc (occupied b.window WINDOW)]
  exact (List.perm_append_comm_assoc _ _ _).trans (List.Perm.of_eq (by rw [List.append_assoc]))

theorem ascending_sorted (hl : Layout b) : SortedBy b.idOf b.ascending := by
  have hlow : ∀ k ∈ b.fallback.take (b.fallbackFind b.windowBase), b.idOf k < b.windowBase :=
    fun k hk => lt_of_mem_take hk
  have hhigh : ∀ k ∈ b.fallback.drop (b.fallbackFind (b.windowBase + WINDOW)),
      b.windowBase + WINDOW ≤ b.idOf k := fun k hk => hl.fallback_sorted.le_of_mem_drop hk
  have hmid : ∀ k ∈ occupied b.window WINDOW,
      b.windowBase ≤ b.idOf k ∧ b.idOf k < b.windowBase + WINDOW := by
    intro k hk
    obtain ⟨i, hi, hw⟩ := mem_occupied.mp hk
    rw [hl.window_id i hi k hw]
    omega
  rw [ascending, SortedBy, List.pairwise_append, List.pairwise_append]
  refine ⟨⟨List.Pairwise.sublist (List.take_sublist _ _) hl.fallback_sorted, hl.window_sorted, ?_⟩,
    List.Pairwise.sublist (List.drop_sublist _ _) hl.fallback_sorted, ?_⟩
  · intro k hk l hm
    exact lt_of_lt_of_le (hlow k hk) (hmid l hm).1
  · intro k hk l hm
    rcases List.mem_append.mp hk with hk | hk
    · have := hlow k hk
      have := hhigh l hm
      omega
    · exact lt_of_lt_of_le (hmid k hk).2 (hhigh l hm)

/-- Tick and slot of every level in the order of `forEachBest`. -/
def bestFirst (b : SortedBook IsBid) : List (Int × Nat) :=
  if IsBid then (b.ascending.flatMap b.segment).reverse else b.ascending.flatMap b.segment

/-- `forEachBest` walks `bestFirst`, with any visitor. -/
theorem forEachBest_eq {σ : Type*} (b : SortedBook IsBid) (fn : σ → Entry → σ × Bool) (s : σ) :
    b.forEachBest fn s = (foldUntil fn s (b.bestFirst.map (fun p => b.entries p.2))).1 := by
  have hblocks : b.blockOrder = if IsBid then b.ascending.reverse else b.ascending := by
    unfold blockOrder ascending
    cases IsBid <;> simp
  have hwalk : b.blockOrder.flatMap
        (fun k => ((b.blocks k).walk IsBid).map (b.blocks k).slots)
      = b.bestFirst.map Prod.snd := by
    rw [hblocks, bestFirst]
    cases IsBid with
    | false =>
        simp only [PriceLevel.walk, Bool.false_eq_true, if_false]
        rw [List.map_flatMap]
        refine List.flatMap_congr (fun k _ => ?_)
        rw [segment, List.map_map]
        rfl
    | true =>
        simp only [PriceLevel.walk, if_true]
        rw [List.reverse_flatMap, List.map_flatMap]
        refine List.flatMap_congr (fun k _ => ?_)
        rw [Function.comp_apply, segment, ← List.map_reverse, List.map_map]
        rfl
  have hvisit : ∀ t : σ, ∀ k, (b.blocks k).forEach IsBid (fun s slot => fn s (b.entries slot)) t
      = foldUntil (fun s slot => fn s (b.entries slot)) t
          (((b.blocks k).walk IsBid).map (b.blocks k).slots) :=
    fun t k => PriceLevel.forEach_eq (b.blocks k) _ IsBid t
  unfold forEachBest
  simp only [hvisit]
  rw [foldUntil_flatMap, hwalk, ← foldUntil_map fn b.entries, List.map_map]
  rfl

theorem bestFirst_perm (hl : Layout b) : b.bestFirst.Perm b.located := by
  have h := (ascending_perm hl).flatMap_right b.segment
  unfold bestFirst
  cases IsBid with
  | false => exact h
  | true => exact (List.reverse_perm _).trans h

/-- Descending ticks for bids, ascending ones for asks. -/
theorem bestFirst_sorted (hl : Layout b) :
    b.bestFirst.Pairwise (fun p q => if IsBid then q.1 < p.1 else p.1 < q.1) := by
  have hasc : (b.ascending.flatMap b.segment).Pairwise (fun p q => p.1 < q.1) := by
    rw [List.pairwise_flatMap]
    refine ⟨?_, ?_⟩
    · intro k _
      rw [segment, List.pairwise_map]
      refine (PriceLevel.pairwise_offsets _).imp (fun h => ?_)
      show b.idOf k * 128 + _ < b.idOf k * 128 + _
      omega
    · refine (ascending_sorted hl).imp (fun hid p hp q hq => ?_)
      obtain ⟨tp, sp⟩ := p
      obtain ⟨tq, sq⟩ := q
      have h1 := (mem_segment.mp hp).1
      have h2 := (mem_segment.mp hq).1
      rw [h1, h2, blockOf_eq, blockOf_eq] at hid
      show tp < tq
      omega
  unfold bestFirst
  cases IsBid with
  | false => simpa using hasc
  | true => simpa using List.pairwise_reverse.mpr hasc

theorem levelCount_eq (h : Wf b) : b.levelCount = b.toMap.keys.card := by
  have := h.length_located
  rw [levelCount, card_toMap h.layout]
  omega

/-! ## Whole histories

The replay keeps a map beside the book. It is told what `update` has returned, and does not see the
book otherwise. -/

/-- The calls that change a side. -/
inductive Call where
  | clear
  | update (price volume : Int)
  deriving DecidableEq, Repr

/-- A call on the book, and its replay on a map. The replay knows only what the call returned. -/
def replayStep (st : SortedBook IsBid × LevelMap) : Call → SortedBook IsBid × LevelMap
  | .clear => (st.1.clear, ∅)
  | .update price volume =>
      let r := st.1.update price volume
      let tick := toTick st.1.tickSize price
      (r.1,
        if volume = 0 then st.2.erase tick
        else if r.2 then st.2.insert tick ⟨price, volume⟩ else st.2)

/-- A new side for the given tick size, and the calls made on it. -/
def replay (IsBid : Bool) (slots : Nat → Nat → Nat) (tickSize : Int) (calls : List Call) :
    SortedBook IsBid × LevelMap :=
  calls.foldl replayStep ((construct IsBid slots).setTickSize tickSize, ∅)

theorem toMap_of_members_nil (hm : b.members = []) : b.toMap = ∅ := by
  rw [toMap, located, hm]
  rfl

/-- What holds between a book and the map its calls are replayed on. -/
structure Replayed (tickSize : Int) (st : SortedBook IsBid × LevelMap) : Prop where
  inv : Inv st.1
  tickSize_eq : st.1.tickSize = tickSize
  toMap_eq : st.1.toMap = st.2

theorem replayed_step {tickSize : Int} {st : SortedBook IsBid × LevelMap}
    (h : Replayed tickSize st) (call : Call) : Replayed tickSize (replayStep st call) := by
  cases call with
  | clear =>
      exact ⟨inv_clear st.1, h.tickSize_eq, toMap_of_members_nil (members_clear st.1)⟩
  | update price volume =>
      have hu := update_spec h.inv price volume
      refine ⟨hu.inv, hu.tickSize.trans h.tickSize_eq, ?_⟩
      show (st.1.update price volume).1.toMap = if volume = 0 then _ else _
      rw [← h.toMap_eq]
      cases hok : (st.1.update price volume).2 with
      | true =>
          rw [hu.applied hok, LevelMap.setLevel]
          rfl
      | false =>
          -- a removal is never refused
          have hv : ¬ volume = 0 := fun hv => by
            rw [hu.accepted.mpr (Or.inl hv)] at hok
            cases hok
          rw [hu.refused hok, if_neg hv]
          rfl

theorem replayed_replay (IsBid : Bool) (slots : Nat → Nat → Nat) (tickSize : Int)
    (calls : List Call) : Replayed tickSize (replay IsBid slots tickSize calls) := by
  have hrun : ∀ (calls : List Call) (st : SortedBook IsBid × LevelMap), Replayed tickSize st →
      Replayed tickSize (calls.foldl replayStep st) := by
    intro calls
    induction calls with
    | nil => exact fun st h => h
    | cons call calls ih => exact fun st h => ih _ (replayed_step h call)
  exact hrun calls _ ⟨inv_setTickSize (inv_construct IsBid slots) tickSize, rfl,
    toMap_of_members_nil (members_construct IsBid slots)⟩

/-- **A side refines a finite map.** After any calls, `find` looks the tick up in the map `M` the
calls were replayed on; `forEachBest` visits the entries of `M` once each, best tick first, with
any visitor; `top` writes the first `min count |M|` of them; and `levelCount` is `|M|`. -/
theorem sortedBook_refines_map (IsBid : Bool) (slots : Nat → Nat → Nat) (tickSize : Int)
    (calls : List Call) :
    let book := (replay IsBid slots tickSize calls).1
    let M := (replay IsBid slots tickSize calls).2
    (∀ price out, book.find price out = found out (M.lookup (toTick tickSize price))) ∧
    (∃ levels : List (Int × Entry),
      (∀ tick entry, (tick, entry) ∈ levels ↔ M.lookup tick = some entry) ∧
      levels.Pairwise (fun p q => if IsBid then q.1 < p.1 else p.1 < q.1) ∧
      (∀ (σ : Type) (fn : σ → Entry → σ × Bool) (s : σ),
        book.forEachBest fn s = (foldUntil fn s (levels.map Prod.snd)).1) ∧
      (∀ out count, book.top out count
        = (fun i => (((levels.map Prod.snd).take count)[i]?).getD (out i),
            min count M.keys.card))) ∧
    book.levelCount = M.keys.card := by
  intro book M
  obtain ⟨hinv, htick, hmap⟩ := replayed_replay IsBid slots tickSize calls
  change Inv book at hinv
  change book.tickSize = tickSize at htick
  change book.toMap = M at hmap
  -- `bestFirst` is the list of levels, visited as `forEachBest` visits them
  have hperm := bestFirst_perm hinv.layout
  have hlen : book.bestFirst.length = M.keys.card := by
    rw [← hmap, card_toMap hinv.layout, hperm.length_eq]
  have hentries : (book.bestFirst.map (fun p => (p.1, book.entries p.2))).map Prod.snd
      = book.bestFirst.map (fun p => book.entries p.2) := by
    rw [List.map_map]
    rfl
  refine ⟨?_, ⟨book.bestFirst.map (fun p => (p.1, book.entries p.2)), ?_, ?_, ?_, ?_⟩, ?_⟩
  · intro price out
    rw [find_eq hinv.layout, htick, hmap]
  · intro tick entry
    rw [← hmap, lookup_toMap hinv.layout, List.mem_map]
    constructor
    · rintro ⟨⟨t, s⟩, hm, he⟩
      obtain ⟨rfl, rfl⟩ := Prod.mk.inj he
      exact ⟨s, hperm.mem_iff.mp hm, rfl⟩
    · rintro ⟨s, hm, rfl⟩
      exact ⟨(tick, s), hperm.mem_iff.mpr hm, rfl⟩
  · exact List.pairwise_map.mpr (bestFirst_sorted hinv.layout)
  · intro σ fn s
    rw [forEachBest_eq, hentries]
  · intro out count
    rw [hentries, top]
    by_cases hc : count = 0
    · rw [if_pos hc, hc]
      simp
    · rw [if_neg hc, forEachBest_eq, foldUntil_writeUpTo _ _ _ _ (by omega)]
      simp [hlen]
  · rw [levelCount_eq hinv.toWf, hmap]

/-! ## When a level is refused -/

theorem card_keys_le (h : Inv b) : b.toMap.keys.card ≤ MAX_LEVELS := by
  have hlen := h.length_located
  rw [card_toMap h.layout]
  omega

theorem card_blockIds_le (h : Inv b) : b.toMap.blockIds.card ≤ MAX_BLOCKS := by
  have hlen := h.length_members
  rw [card_blockIds h]
  omega

/-- No room is left for a level exactly when one of the two limits is reached. -/
theorem not_accepts_iff (h : Inv b) (tick volume : Int) :
    ¬ b.toMap.Accepts tick volume ↔ volume ≠ 0 ∧ tick ∉ b.toMap ∧
      (b.toMap.keys.card = MAX_LEVELS ∨
        blockOf tick ∉ b.toMap.blockIds ∧ b.toMap.blockIds.card = MAX_BLOCKS) := by
  have hkeys := card_keys_le h
  have hblocks := card_blockIds_le h
  have hk : ¬ b.toMap.keys.card < MAX_LEVELS ↔ b.toMap.keys.card = MAX_LEVELS := by omega
  have hb : ¬ b.toMap.blockIds.card < MAX_BLOCKS ↔ b.toMap.blockIds.card = MAX_BLOCKS := by omega
  rw [LevelMap.Accepts, LevelMap.Fits, not_or, not_or, not_and_or, not_or, hk, hb]

/-- **A level is refused exactly when it cannot fit, and a refusal changes nothing.** After any
calls, `update` answers `false` exactly when the call adds a level at a tick that has none, and
either `MAX_LEVELS` levels exist or the levels occupy `MAX_BLOCKS` blocks of which none is the
block of the tick. The book is then as it was, in every field; a removal and a rewrite of a level
that exists always succeed. -/
theorem update_refused_iff (IsBid : Bool) (slots : Nat → Nat → Nat) (tickSize : Int)
    (calls : List Call) (price volume : Int) :
    let book := (replay IsBid slots tickSize calls).1
    let tick := toTick tickSize price
    let levels := book.toMap.keys
    let blocksInUse := levels.image blockOf
    ((book.update price volume).2 = false ↔
      volume ≠ 0 ∧ tick ∉ levels ∧
        (levels.card = MAX_LEVELS ∨
          blockOf tick ∉ blocksInUse ∧ blocksInUse.card = MAX_BLOCKS)) ∧
    ((book.update price volume).2 = false → (book.update price volume).1 = book) ∧
    (volume = 0 ∨ tick ∈ levels → (book.update price volume).2 = true) := by
  intro book tick levels blocksInUse
  obtain ⟨hinv, htick, _⟩ := replayed_replay IsBid slots tickSize calls
  change Inv book at hinv
  change book.tickSize = tickSize at htick
  have hu := update_spec hinv price volume
  have haccepts : (book.update price volume).2 = false ↔ ¬ book.toMap.Accepts tick volume := by
    rw [← Bool.not_eq_true, hu.accepted, htick]
  refine ⟨?_, hu.refused, ?_⟩
  · rw [haccepts, not_accepts_iff hinv]
    rfl
  · intro hold
    rw [hu.accepted, htick]
    rcases hold with hv | hin
    · exact Or.inl hv
    · exact Or.inr (Or.inl (Finmap.mem_keys.mp hin))

end SortedBook

end AstraConnect.Orderbook
