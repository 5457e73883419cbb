import Mathlib.Data.List.Dedup
import NeuStack.DoublyLinked
import NeuStack.RateLimiterChecks

/-! # The list of the rate limiter

The links of the buckets are a doubly linked list (`DoublyLinked`), and `Sound` says that
it consists of the buckets of the table.  What the calls do to it is `lruStep`, a list of
addresses without links: a check moves its address to the end, and an insertion into a full
table drops a quarter from the front.  So the order is that of the last checks; a limiter
that is switched off does not look at the list, and such checks do not count.
-/
namespace NeuStack
namespace RateLimiter
variable {φ : Type} [FirewallFloat φ]

/-- The links of the buckets. -/
def links (r : RateLimiter φ) : DoublyLinked UInt32 where
  head := r.lruHead
  tail := r.lruTail
  prev ip := (r.find ip).bind (·.lruPrev)
  next ip := (r.find ip).bind (·.lruNext)

/-- The addresses from `_lru_head` on. -/
def order (r : RateLimiter φ) : List UInt32 := r.links.walk r.buckets.length r.lruHead

/-- **The list consists of the buckets**, each once and under its own address. -/
structure Sound (r : RateLimiter φ) : Prop where
  keys : (r.buckets.map (·.1)).Nodup
  own : ∀ ip b, r.find ip = some b → b.ip = ip
  threads : r.links.Threads r.order
  mem_order : ∀ ip, ip ∈ r.order ↔ (r.find ip).isSome = true
  length : r.order.length = r.buckets.length
  few : r.buckets.length ≤ maxTrackedIps

/-- What a call does to the addresses, from the least to the most recently checked. -/
def lruStep (enabled : Bool) (l : List UInt32) : Op → List UInt32
  | .check ip _ =>
    if !enabled then l
    else if ip ∈ l then l.erase ip ++ [ip]
    else (if maxTrackedIps ≤ l.length then l.drop (l.length / 4) else l) ++ [ip]
  | .reset ip => l.erase ip
  | .clear => []
  | .setEnabled _ | .setRate _ _ => l

/-! ## Links -/

/-- The table with the addresses `l` in it and linked in that order. -/
structure Holds (r : RateLimiter φ) (l : List UInt32) : Prop where
  keys : (r.buckets.map (·.1)).Nodup
  own : ∀ ip b, r.find ip = some b → b.ip = ip
  threads : r.links.Threads l
  mem_iff : ∀ ip, ip ∈ l ↔ (r.find ip).isSome = true

variable {r : RateLimiter φ} {l l₁ l₂ : List UInt32} {ip k : UInt32} {b : Bucket φ}

omit [FirewallFloat φ] in
theorem mem_keys_iff (r : RateLimiter φ) (ip : UInt32) :
    ip ∈ r.buckets.map (·.1) ↔ (r.find ip).isSome = true := by
  constructor
  · intro hmem
    cases hfind : r.find ip with
    | none => exact absurd hmem (Table.lookup_eq_none hfind)
    | some b => rfl
  · intro hsome
    obtain ⟨b, hb⟩ := Option.isSome_iff_exists.mp hsome
    exact List.mem_map.mpr ⟨_, Table.mem_of_lookup hb, rfl⟩

omit [FirewallFloat φ] in
theorem Holds.length (h : r.Holds l) : l.length = r.buckets.length := by
  have hperm : l.Perm (r.buckets.map (·.1)) :=
    (List.perm_ext_iff_of_nodup h.threads.nodup h.keys).mpr fun ip => by
      rw [h.mem_iff, mem_keys_iff]
  rw [hperm.length_eq, List.length_map]

omit [FirewallFloat φ] in
theorem Holds.order_eq (h : r.Holds l) : r.order = l := by
  rw [order, ← h.length]
  exact h.threads.walk

omit [FirewallFloat φ] in
theorem Holds.sound (h : r.Holds l) (hfew : r.buckets.length ≤ maxTrackedIps) : r.Sound := by
  have horder := h.order_eq
  exact ⟨h.keys, h.own, horder ▸ h.threads, horder ▸ h.mem_iff, horder ▸ h.length, hfew⟩

omit [FirewallFloat φ] in
theorem Sound.holds (h : r.Sound) : r.Holds r.order := ⟨h.keys, h.own, h.threads, h.mem_order⟩

/-! ## Changing links -/

omit [FirewallFloat φ] in
theorem keys_modify (r : RateLimiter φ) (k : UInt32) (f : Bucket φ → Bucket φ) :
    (r.modify k f).buckets.map (·.1) = r.buckets.map (·.1) := by
  rw [modify, List.map_map]
  refine List.map_congr_left fun e _ => ?_
  show (if e.1 = k then (e.1, f e.2) else e).1 = e.1
  split <;> rfl

/-- `r'` has the buckets of `r`, under the same addresses. -/
structure Relinks (r r' : RateLimiter φ) : Prop where
  keys : r'.buckets.map (·.1) = r.buckets.map (·.1)
  own : ∀ ip, (r'.find ip).map (·.ip) = (r.find ip).map (·.ip)

omit [FirewallFloat φ] in
theorem Relinks.refl (r : RateLimiter φ) : Relinks r r := ⟨rfl, fun _ => rfl⟩

omit [FirewallFloat φ] in
theorem Relinks.modify {r' : RateLimiter φ} (h : Relinks r r') (k : UInt32)
    {f : Bucket φ → Bucket φ} (hf : ∀ b, r'.find k = some b → (f b).ip = b.ip) :
    Relinks r (r'.modify k f) := by
  refine ⟨(keys_modify ..).trans h.keys, fun ip => ?_⟩
  rw [← h.own, find_modify]
  split
  · rename_i heq
    subst heq
    cases hfind : r'.find ip with
    | none => rfl
    | some b => exact congrArg some (hf b hfind)
  · rfl

omit [FirewallFloat φ] in
theorem Relinks.isSome {r' : RateLimiter φ} (h : Relinks r r') (ip : UInt32) :
    (r'.find ip).isSome = (r.find ip).isSome := by
  rw [← Option.isSome_map (f := (·.ip)), h.own, Option.isSome_map]

omit [FirewallFloat φ] in
theorem Relinks.holds {r' : RateLimiter φ} (h : Relinks r r') (hr : r.Holds l)
    {l' : List UInt32} (hmem : ∀ ip, ip ∈ l' ↔ ip ∈ l) (hthreads : r'.links.Threads l') :
    r'.Holds l' := by
  refine ⟨h.keys ▸ hr.keys, fun ip b hb => ?_, hthreads, fun ip => ?_⟩
  · have hown := h.own ip
    rw [hb] at hown
    obtain ⟨b', hb', heq⟩ := Option.map_eq_some_iff.mp hown.symm
    exact heq.symm.trans (hr.own ip b' hb')
  · rw [hmem, hr.mem_iff, h.isSome]

omit [FirewallFloat φ] in
theorem links_prev (h : r.find k = some b) : r.links.prev k = b.lruPrev :=
  congrArg (fun o : Option (Bucket φ) => o.bind fun x => x.lruPrev) h

omit [FirewallFloat φ] in
theorem links_next (h : r.find k = some b) : r.links.next k = b.lruNext :=
  congrArg (fun o : Option (Bucket φ) => o.bind fun x => x.lruNext) h

omit [FirewallFloat φ] in
theorem links_modify (r : RateLimiter φ) (k : UInt32) (f : Bucket φ → Bucket φ) :
    (r.modify k f).links = { r.links with
      prev := Function.update r.links.prev k (((r.find k).map f).bind (·.lruPrev))
      next := Function.update r.links.next k (((r.find k).map f).bind (·.lruNext)) } := by
  have hlink (link : Bucket φ → Option UInt32) (x : UInt32) :
      ((r.modify k f).find x).bind link =
        Function.update (fun x => (r.find x).bind link) k (((r.find k).map f).bind link) x := by
    rw [find_modify, Function.update_apply]
    split
    · rename_i heq
      rw [heq]
    · rfl
  exact DoublyLinked.ext rfl rfl (funext (hlink _)) (funext (hlink _))

omit [FirewallFloat φ] in
/-- A change that leaves the links alone. -/
theorem links_unchanged {f : Bucket φ → Bucket φ} (hf : ∀ b, r.find k = some b →
    (f b).lruPrev = b.lruPrev ∧ (f b).lruNext = b.lruNext) : (r.modify k f).links = r.links := by
  have hsame (link : Bucket φ → Option UInt32) (hlink : ∀ b, r.find k = some b →
      link (f b) = link b) : ((r.find k).map f).bind link = (r.find k).bind link := by
    cases hfind : r.find k with
    | none => rfl
    | some b => exact hlink b hfind
  rw [links_modify, hsame _ fun b hb => (hf b hb).1, hsame _ fun b hb => (hf b hb).2]
  exact DoublyLinked.ext rfl rfl (Function.update_eq_self ..) (Function.update_eq_self ..)

omit [FirewallFloat φ] in
theorem links_setNext (hk : (r.find k).isSome = true) (v : Option UInt32) :
    (r.modify k fun x => { x with lruNext := v }).links =
      { r.links with next := Function.update r.links.next k v } := by
  obtain ⟨b, hb⟩ := Option.isSome_iff_exists.mp hk
  rw [links_modify, hb, Option.map_some, Option.bind_some, Option.bind_some, ← links_prev hb,
    Function.update_eq_self]

omit [FirewallFloat φ] in
theorem links_setPrev (hk : (r.find k).isSome = true) (v : Option UInt32) :
    (r.modify k fun x => { x with lruPrev := v }).links =
      { r.links with prev := Function.update r.links.prev k v } := by
  obtain ⟨b, hb⟩ := Option.isSome_iff_exists.mp hk
  rw [links_modify, hb, Option.map_some, Option.bind_some, Option.bind_some, ← links_next hb,
    Function.update_eq_self]

omit [FirewallFloat φ] in
theorem links_unlink (r : RateLimiter φ) (k : UInt32) :
    (r.modify k fun x => { x with lruPrev := none, lruNext := none }).links =
      { r.links with
        prev := Function.update r.links.prev k none
        next := Function.update r.links.next k none } := by
  rw [links_modify]
  cases r.find k <;> rfl

omit [FirewallFloat φ] in
theorem links_attach (hk : (r.find k).isSome = true) (t : Option UInt32) :
    (r.modify k fun x => { x with lruPrev := t, lruNext := none }).links =
      { r.links with
        prev := Function.update r.links.prev k t
        next := Function.update r.links.next k none } := by
  obtain ⟨b, hb⟩ := Option.isSome_iff_exists.mp hk
  rw [links_modify, hb]
  rfl

omit [FirewallFloat φ] in
theorem Holds.modify (h : r.Holds l) {f : Bucket φ → Bucket φ} (hf : ∀ b, r.find k = some b →
    (f b).ip = b.ip ∧ (f b).lruPrev = b.lruPrev ∧ (f b).lruNext = b.lruNext) :
    (r.modify k f).Holds l := by
  refine ((Relinks.refl r).modify k fun b hb => (hf b hb).1).holds h (fun _ => Iff.rfl) ?_
  rw [links_unchanged fun b hb => (hf b hb).2]
  exact h.threads

/-- What is behind `p`, or at the head, becomes `v`. -/
def linkNext (p v : Option UInt32) (r : RateLimiter φ) : RateLimiter φ :=
  match p with
  | some p => r.modify p fun x => { x with lruNext := v }
  | none => { r with lruHead := v }

/-- What is in front of `n`, or at the tail, becomes `v`. -/
def linkPrev (n v : Option UInt32) (r : RateLimiter φ) : RateLimiter φ :=
  match n with
  | some n => r.modify n fun x => { x with lruPrev := v }
  | none => { r with lruTail := v }

omit [FirewallFloat φ] in
theorem lruRemove_eq (r : RateLimiter φ) (b : Bucket φ) : r.lruRemove b =
    ((r.linkNext b.lruPrev b.lruNext).linkPrev b.lruNext b.lruPrev).modify b.ip
      fun x => { x with lruPrev := none, lruNext := none } := rfl

omit [FirewallFloat φ] in
theorem lruPushBack_eq (r : RateLimiter φ) (ip : UInt32) : r.lruPushBack ip =
    { (r.modify ip fun x => { x with lruPrev := r.lruTail, lruNext := none }).linkNext r.lruTail
      (some ip) with lruTail := some ip } := by
  unfold lruPushBack linkNext
  cases r.lruTail <;> rfl

variable {r' : RateLimiter φ} {p n v : Option UInt32}

omit [FirewallFloat φ] in
theorem Relinks.linkNext (h : Relinks r r') (p v : Option UInt32) :
    Relinks r (r'.linkNext p v) := by
  cases p with
  | none => exact ⟨h.keys, h.own⟩
  | some p =>
    rw [RateLimiter.linkNext]
    exact h.modify p fun _ _ => rfl

omit [FirewallFloat φ] in
theorem Relinks.linkPrev (h : Relinks r r') (n v : Option UInt32) :
    Relinks r (r'.linkPrev n v) := by
  cases n with
  | none => exact ⟨h.keys, h.own⟩
  | some n =>
    rw [RateLimiter.linkPrev]
    exact h.modify n fun _ _ => rfl

omit [FirewallFloat φ] in
theorem Relinks.lruRemove (r : RateLimiter φ) (b : Bucket φ) : Relinks r (r.lruRemove b) := by
  rw [lruRemove_eq]
  exact (((Relinks.refl r).linkNext _ _).linkPrev _ _).modify _ fun _ _ => rfl

omit [FirewallFloat φ] in
/-- The links of the element that is appended. -/
theorem Relinks.attach (h : Relinks r r') (ip : UInt32) (t : Option UInt32) :
    Relinks r (r'.modify ip fun x => { x with lruPrev := t, lruNext := none }) :=
  h.modify ip fun _ _ => rfl

omit [FirewallFloat φ] in
theorem Relinks.lruPushBack (h : Relinks r r') (ip : UInt32) : Relinks r (r'.lruPushBack ip) := by
  have hlinked := (h.attach ip r'.lruTail).linkNext r'.lruTail (some ip)
  rw [lruPushBack_eq]
  exact ⟨hlinked.keys, hlinked.own⟩

omit [FirewallFloat φ] in
theorem links_linkNext (hp : ∀ k, p = some k → (r.find k).isSome = true) :
    (r.linkNext p v).links = { r.links with
      head := if p = none then v else r.lruHead
      next := fun x => if p = some x then v else r.links.next x } := by
  cases p with
  | none => rfl
  | some k =>
    rw [linkNext, links_setNext (hp k rfl)]
    refine DoublyLinked.ext rfl rfl rfl (funext fun x => ?_)
    show Function.update r.links.next k v x = if some k = some x then v else r.links.next x
    rw [Function.update_apply]
    simp only [Option.some_inj, eq_comm]

omit [FirewallFloat φ] in
theorem links_linkPrev (hn : ∀ k, n = some k → (r.find k).isSome = true) :
    (r.linkPrev n v).links = { r.links with
      tail := if n = none then v else r.lruTail
      prev := fun x => if n = some x then v else r.links.prev x } := by
  cases n with
  | none => rfl
  | some k =>
    rw [linkPrev, links_setPrev (hn k rfl)]
    refine DoublyLinked.ext rfl rfl (funext fun x => ?_) rfl
    show Function.update r.links.prev k v x = if some k = some x then v else r.links.prev x
    rw [Function.update_apply]
    simp only [Option.some_inj, eq_comm]

omit [FirewallFloat φ] in
/-- `lru_remove` takes the bucket out of the links, if it and its neighbours are there. -/
theorem links_lruRemove (hfind : r.find b.ip = some b)
    (hprev : ∀ p, b.lruPrev = some p → (r.find p).isSome = true)
    (hnext : ∀ n, b.lruNext = some n → (r.find n).isSome = true) :
    (r.lruRemove b).links = r.links.remove b.ip := by
  have hnext' (n : UInt32) (h : b.lruNext = some n) :
      ((r.linkNext b.lruPrev b.lruNext).find n).isSome = true := by
    rw [((Relinks.refl r).linkNext _ _).isSome]
    exact hnext n h
  rw [lruRemove_eq, links_unlink, links_linkPrev hnext', links_linkNext hprev,
    DoublyLinked.remove, links_prev hfind, links_next hfind]
  refine DoublyLinked.ext rfl ?_ (funext fun x => ?_) (funext fun x => ?_)
  · cases b.lruPrev <;> rfl
  · exact Function.update_apply ..
  · exact Function.update_apply ..

omit [FirewallFloat φ] in
/-- `lru_push_back` appends the bucket to the links. -/
theorem links_lruPushBack (hfind : (r.find ip).isSome = true)
    (htail : ∀ t, r.lruTail = some t → (r.find t).isSome = true) :
    (r.lruPushBack ip).links = r.links.pushBack ip := by
  have htail' (t : UInt32) (h : r.lruTail = some t) : ((r.modify ip fun x =>
      { x with lruPrev := r.lruTail, lruNext := none }).find t).isSome = true := by
    rw [((Relinks.refl r).attach ip r.lruTail).isSome]
    exact htail t h
  rw [lruPushBack_eq, DoublyLinked.pushBack]
  have hlinks := links_linkNext (v := some ip) htail'
  rw [links_attach hfind] at hlinks
  generalize RateLimiter.linkNext r.lruTail (some ip) _ = linked at hlinks
  refine DoublyLinked.ext ?_ rfl ?_ ?_
  · have hhead := congrArg DoublyLinked.head hlinks
    exact hhead
  · refine (congrArg DoublyLinked.prev hlinks).trans (funext fun x => ?_)
    exact Function.update_apply ..
  · refine (congrArg DoublyLinked.next hlinks).trans (funext fun x => ?_)
    show (if r.lruTail = some x then some ip else Function.update r.links.next ip none x) = _
    rw [Function.update_apply]
    rfl

/-! ## The operations on the list -/

omit [FirewallFloat φ] in
/-- The links of a bucket lead to other buckets. -/
theorem Holds.threads_lruRemove (h : r.Holds (l₁ ++ ip :: l₂)) (hfind : r.find ip = some b) :
    (r.lruRemove b).links.Threads (l₁ ++ l₂) := by
  have hip := h.own ip b hfind
  subst hip
  have hprev := h.threads.prev_eq
  have hnext := h.threads.next_eq
  rw [links_prev hfind] at hprev
  rw [links_next hfind] at hnext
  rw [links_lruRemove hfind]
  · exact h.threads.remove
  · intro p hp
    rw [hprev] at hp
    exact (h.mem_iff p).mp (List.mem_append_left _ (List.mem_of_getLast? hp))
  · intro n hn
    rw [hnext] at hn
    exact (h.mem_iff n).mp (List.mem_append_right _
      (List.mem_cons_of_mem _ (List.mem_of_head? hn)))

omit [FirewallFloat φ] in
/-- An address in the list, and what is in front of it and behind. -/
theorem Holds.split (h : r.Holds l) (hfind : r.find ip = some b) :
    ∃ l₁ l₂, l = l₁ ++ ip :: l₂ ∧ l.erase ip = l₁ ++ l₂ := by
  have hmem : ip ∈ l := (h.mem_iff ip).mpr (Option.isSome_iff_exists.mpr ⟨b, hfind⟩)
  obtain ⟨l₁, l₂, rfl⟩ := List.append_of_mem hmem
  have hfresh := (List.nodup_cons.mp (List.nodup_middle.mp h.threads.nodup)).1
  refine ⟨l₁, l₂, rfl, ?_⟩
  rw [List.erase_append_right _ fun hl => hfresh (List.mem_append_left _ hl),
    List.erase_cons_head]

omit [FirewallFloat φ] in
/-- A bucket is taken out of the list and the table. -/
theorem Holds.delete (h : r.Holds l) (hfind : r.find ip = some b) :
    ((r.lruRemove b).erase b.ip).Holds (l.erase ip) := by
  have hip := h.own ip b hfind
  obtain ⟨l₁, l₂, rfl, herase⟩ := h.split hfind
  have hfresh := (List.nodup_cons.mp (List.nodup_middle.mp h.threads.nodup)).1
  have hrelinks := Relinks.lruRemove r b
  have hremoved := h.threads_lruRemove hfind
  rw [hip, herase]
  refine ⟨?_, fun k b' hb' => ?_, ?_, fun k => ?_⟩
  · refine Table.nodup_erase ?_
    rw [hrelinks.keys]
    exact h.keys
  · rw [find_erase] at hb'
    split at hb'
    · cases hb'
    · have hown := hrelinks.own k
      rw [hb'] at hown
      obtain ⟨b'', hb'', heq⟩ := Option.map_eq_some_iff.mp hown.symm
      exact heq.symm.trans (h.own k b'' hb'')
  · refine ⟨hremoved.nodup, hremoved.head, hremoved.tail, ?_, ?_⟩
    · refine hremoved.next.congr fun x hx => ?_
      show (((r.lruRemove b).erase ip).find x).bind _ = _
      rw [find_erase, if_neg fun heq : x = ip => hfresh (heq ▸ hx)]
      rfl
    · refine hremoved.prev.congr fun x hx => ?_
      show (((r.lruRemove b).erase ip).find x).bind _ = _
      rw [find_erase, if_neg fun heq : x = ip => hfresh (heq ▸ List.mem_reverse.mp hx)]
      rfl
  · rw [find_erase]
    split
    · rename_i heq
      subst heq
      exact ⟨fun hk => absurd hk hfresh, nofun⟩
    · rename_i hne
      rw [hrelinks.isSome, ← h.mem_iff, List.mem_append, List.mem_append, List.mem_cons]
      exact ⟨fun hk => hk.imp_right Or.inr, fun hk => hk.imp_right fun hk => hk.resolve_left hne⟩

omit [FirewallFloat φ] in
/-- A bucket is moved to the end. -/
theorem Holds.moveToTail (h : r.Holds l) (hfind : r.find ip = some b) :
    (r.lruMoveToTail b).Holds (l.erase ip ++ [ip]) := by
  have hip := h.own ip b hfind
  obtain ⟨l₁, l₂, rfl, herase⟩ := h.split hfind
  have hfresh := (List.nodup_cons.mp (List.nodup_middle.mp h.threads.nodup)).1
  have hmem (x : UInt32) : x ∈ (l₁ ++ l₂) ++ [ip] ↔ x ∈ l₁ ++ ip :: l₂ := by
    simp only [List.mem_append, List.mem_cons, List.not_mem_nil, or_false]
    tauto
  rw [lruMoveToTail, herase, hip]
  split
  · rename_i htail
    have hlast : (l₁ ++ ip :: l₂).getLast? = some ip := h.threads.tail.symm.trans htail
    cases l₂ with
    | nil => rwa [List.append_nil]
    | cons x l₂ =>
      rw [List.getLast?_append, List.getLast?_cons_cons] at hlast
      have hmem' : ip ∈ x :: l₂ := by
        refine List.mem_of_getLast? ?_
        rwa [List.getLast?_cons, Option.some_or, ← List.getLast?_cons] at hlast
      exact absurd (List.mem_append_right _ hmem') hfresh
  · have hrelinks := Relinks.lruRemove r b
    have hremoved := h.threads_lruRemove hfind
    refine (hrelinks.lruPushBack ip).holds h hmem ?_
    rw [links_lruPushBack]
    · exact hremoved.pushBack hfresh
    · rw [hrelinks.isSome, hfind]
      rfl
    · intro t ht
      rw [hrelinks.isSome, ← h.mem_iff, ← hmem]
      refine List.mem_append_left _ (List.mem_of_getLast? ?_)
      exact hremoved.tail.symm.trans ht

omit [FirewallFloat φ] in
/-- A new bucket is appended. -/
theorem Holds.insert (h : r.Holds l) (hfind : r.find b.ip = none) :
    (r.insert b).Holds (l ++ [b.ip]) := by
  have hfresh : b.ip ∉ l := fun hmem => by
    have hsome := (h.mem_iff b.ip).mp hmem
    rw [hfind] at hsome
    cases hsome
  obtain ⟨r', hr'⟩ : ∃ r' : RateLimiter φ, r' = { r with buckets := r.buckets ++ [(b.ip, b)] } :=
    ⟨_, rfl⟩
  have hfind' (k : UInt32) : r'.find k = (r.find k).or (if k = b.ip then some b else none) := by
    rw [hr']
    exact find_append r b.ip k b
  have hself : r'.find b.ip = some b := by
    rw [hfind', hfind, if_pos rfl]
    rfl
  have hother {k : UInt32} (hk : k ≠ b.ip) : r'.find k = r.find k := by
    rw [hfind', if_neg hk, Option.or_none]
  have hne {x : UInt32} (hx : x ∈ l) : x ≠ b.ip := fun heq => hfresh (heq ▸ hx)
  have hthreads : r'.links.Threads l := by
    refine ⟨h.threads.nodup, ?_, ?_, h.threads.next.congr fun x hx => ?_,
      h.threads.prev.congr fun x hx => ?_⟩
    · rw [hr']
      exact h.threads.head
    · rw [hr']
      exact h.threads.tail
    · show (r'.find x).bind _ = _
      rw [hother (hne hx)]
      rfl
    · show (r'.find x).bind _ = _
      rw [hother (hne (List.mem_reverse.mp hx))]
      rfl
  have hpush : r.insert b = r'.lruPushBack b.ip := by rw [hr', RateLimiter.insert]
  have hrelinks := (Relinks.refl r').lruPushBack b.ip
  rw [hpush]
  refine ⟨?_, fun k b' hb' => ?_, ?_, fun k => ?_⟩
  · rw [hrelinks.keys, hr', List.map_append]
    refine List.nodup_append.mpr ⟨h.keys, List.nodup_singleton _, fun k hk k' hk' heq => ?_⟩
    rw [heq, List.mem_singleton.mp hk'] at hk
    exact Table.lookup_eq_none hfind hk
  · have hown := hrelinks.own k
    rw [hb'] at hown
    obtain ⟨b'', hb'', heq⟩ := Option.map_eq_some_iff.mp hown.symm
    refine heq.symm.trans ?_
    by_cases hk : k = b.ip
    · rw [hk, hself] at hb''
      cases hb''
      exact hk.symm
    · rw [hother hk] at hb''
      exact h.own k b'' hb''
  · rw [links_lruPushBack (by rw [hself]; rfl)]
    · exact hthreads.pushBack hfresh
    · intro t ht
      have hmem : t ∈ l := List.mem_of_getLast? (hthreads.tail.symm.trans ht)
      rw [hother (hne hmem)]
      exact (h.mem_iff t).mp hmem
  · rw [hrelinks.isSome, List.mem_append, List.mem_singleton, h.mem_iff, hfind']
    by_cases hk : k = b.ip
    · rw [if_pos hk, hk, hfind]
      exact ⟨fun _ => rfl, fun _ => Or.inr rfl⟩
    · rw [if_neg hk, Option.or_none]
      exact or_iff_left hk

omit [FirewallFloat φ] in
/-- Evicting drops the front of the list. -/
theorem Holds.evictHeads (h : r.Holds l) (n : Nat) : (r.evictHeads n).Holds (l.drop n) := by
  induction n generalizing r l with
  | zero => exact h
  | succ n ih =>
    have hhead : r.lruHead = l.head? := h.threads.head
    rw [RateLimiter.evictHeads, hhead]
    cases l with
    | nil => exact h
    | cons ip l =>
      obtain ⟨b, hb⟩ := Option.isSome_iff_exists.mp
        ((h.mem_iff ip).mp (List.mem_cons_self ..))
      have hdelete := h.delete hb
      rw [List.erase_cons_head] at hdelete
      rw [List.head?_cons, Option.bind_some, hb]
      exact ih hdelete

/-! ## The calls -/

theorem Holds.settle (h : r.Holds l) {old : Bucket φ} (hfind : r.find ip = some old)
    (hb : b.ip = old.ip ∧ b.lruPrev = old.lruPrev ∧ b.lruNext = old.lruNext) :
    (r.settle ip b).1.Holds (l.erase ip ++ [ip]) := by
  have hreplaced : (r.modify ip fun _ => b).Holds l := h.modify fun b' hb' => by
    rw [hfind] at hb'
    cases hb'
    exact hb
  have hfound : (r.modify ip fun _ => b).find ip = some b := by
    rw [find_modify, if_pos rfl, hfind]
    rfl
  have hmoved := hreplaced.moveToTail hfound
  rw [RateLimiter.settle]
  split
  · exact hmoved.modify (k := ip) (f := fun x => { x with tokens := x.tokens - 1 })
      fun _ _ => ⟨rfl, rfl, rfl⟩
  · exact hmoved

omit [FirewallFloat φ] in
/-- Room is made at the front of the list. -/
theorem Holds.roomy (h : r.Holds l) :
    r.roomy.Holds (if maxTrackedIps ≤ l.length then l.drop (l.length / 4) else l) := by
  rw [RateLimiter.roomy, h.length]
  split
  · rename_i hfull
    have hsome : ¬ r.buckets.length / 4 = 0 := by
      rw [maxTrackedIps] at hfull
      omega
    rw [evictLru, if_neg hsome]
    exact h.evictHeads _
  · exact h

omit [FirewallFloat φ] in
theorem Holds.find_eq_none (h : r.Holds l) : r.find ip = none ↔ ip ∉ l := by
  rw [h.mem_iff, Bool.not_eq_true, Option.isSome_eq_false_iff, Option.isNone_iff_eq_none]

theorem Holds.check (h : r.Holds l) (ip : UInt32) (nowUs : UInt64) :
    (r.check ip nowUs).1.Holds (lruStep r.config.enabled l (.check ip nowUs)) := by
  cases henabled : r.config.enabled with
  | false =>
    rw [RateLimiter.check, henabled]
    exact h
  | true =>
    obtain ⟨hself, -⟩ := getOrCreateBucket_self r ip nowUs
    rw [check_eq henabled]
    cases hfind : r.find ip with
    | some b =>
      have hmem : ip ∈ l := (h.mem_iff ip).mpr (Option.isSome_iff_exists.mpr ⟨b, hfind⟩)
      have hstep : lruStep true l (.check ip nowUs) = l.erase ip ++ [ip] := if_pos hmem
      rw [getOrCreateBucket_some hfind, hstep]
      exact h.settle hfind ⟨rfl, rfl, rfl⟩
    | none =>
      have hmem : ip ∉ l := h.find_eq_none.mp hfind
      have hstep : lruStep true l (.check ip nowUs) =
        (if maxTrackedIps ≤ l.length then l.drop (l.length / 4) else l) ++ [ip] := if_neg hmem
      have hroomy := h.roomy
      have hfresh : ip ∉ if maxTrackedIps ≤ l.length then l.drop (l.length / 4) else l := by
        split
        · exact fun hdrop => hmem (List.mem_of_mem_drop hdrop)
        · exact hmem
      have hinsert := hroomy.insert (b := r.roomy.newBucket ip nowUs)
        (hroomy.find_eq_none.mpr hfresh)
      have hsettle := (show (r.getOrCreateBucket ip nowUs).1.Holds _ by
        rw [getOrCreateBucket_none hfind]
        exact hinsert).settle hself (b := refill (r.getOrCreateBucket ip nowUs).1.config
          (r.getOrCreateBucket ip nowUs).2 nowUs) ⟨rfl, rfl, rfl⟩
      have hlast : ((if maxTrackedIps ≤ l.length then l.drop (l.length / 4) else l) ++
          [ip]).erase ip ++ [ip] =
          (if maxTrackedIps ≤ l.length then l.drop (l.length / 4) else l) ++ [ip] := by
        rw [List.erase_append_right _ hfresh, List.erase_cons_head, List.append_nil]
      rw [hstep, ← hlast]
      exact hsettle

/-- **The list follows the calls.** -/
theorem Holds.step (h : r.Holds l) (x : Op) :
    (r.step x).Holds (lruStep r.config.enabled l x) := by
  cases x with
  | check ip nowUs => exact h.check ip nowUs
  | reset ip =>
    show (r.reset ip).Holds (l.erase ip)
    rw [reset]
    split
    · rename_i b hfind
      have hdelete := h.delete hfind
      rwa [h.own ip b hfind] at hdelete
    · rename_i hfind
      rwa [List.erase_of_not_mem (h.find_eq_none.mp hfind)]
  | clear =>
    refine ⟨List.nodup_nil, fun ip b hfind => ?_, DoublyLinked.Threads.empty, fun ip => ?_⟩
    · cases hfind
    · exact iff_of_false List.not_mem_nil Bool.false_ne_true
  | setEnabled enabled => exact ⟨h.keys, h.own, h.threads, h.mem_iff⟩
  | setRate pps burst => exact ⟨h.keys, h.own, h.threads, h.mem_iff⟩

/-! ## The order -/

/-- Room is made before the table overflows. -/
theorem length_lruStep (enabled : Bool) (x : Op) (h : l.length ≤ maxTrackedIps) :
    (lruStep enabled l x).length ≤ maxTrackedIps := by
  cases x with
  | check ip nowUs =>
    show (if !enabled then l else if ip ∈ l then l.erase ip ++ [ip] else _).length ≤ _
    split
    · exact h
    · split
      · rename_i hmem
        rw [List.length_append, List.length_erase_of_mem hmem, List.length_singleton,
          Nat.sub_add_cancel (List.length_pos_of_mem hmem)]
        exact h
      · rw [List.length_append, List.length_singleton]
        split
        · rw [List.length_drop]
          rw [maxTrackedIps] at *
          omega
        · rename_i hroom
          exact Nat.lt_of_not_le hroom
  | reset ip => exact (List.length_erase_le).trans h
  | clear => exact Nat.zero_le _
  | setEnabled enabled => exact h
  | setRate pps burst => exact h

/-- The address of a check that looks at the table. -/
def checkedIp (r : RateLimiter φ) : Op → List UInt32
  | .check ip _ => if r.config.enabled then [ip] else []
  | _ => []

/-- The addresses of those checks. -/
def checked (r : RateLimiter φ) : List Op → List UInt32
  | [] => []
  | x :: xs => r.checkedIp x ++ checked (r.step x) xs

/-- The addresses of the checks. -/
def checks (xs : List Op) : List UInt32 :=
  xs.filterMap fun | .check ip _ => some ip | _ => none

/-- Of equal elements `List.dedup` keeps the last. -/
theorem dedup_concat (cs : List UInt32) (a : UInt32) :
    (cs ++ [a]).dedup = cs.dedup.erase a ++ [a] := by
  induction cs with
  | nil => rfl
  | cons c cs ih =>
    rw [List.cons_append]
    by_cases hmem : c ∈ cs
    · rw [List.dedup_cons_of_mem (List.mem_append_left _ hmem), List.dedup_cons_of_mem hmem, ih]
    · rw [List.dedup_cons_of_notMem hmem]
      by_cases hc : c = a
      · subst hc
        rw [List.dedup_cons_of_mem (List.mem_append_right _ (List.mem_singleton_self _)), ih,
          List.erase_cons_head, List.erase_of_not_mem fun h => hmem (List.mem_dedup.mp h)]
      · rw [List.dedup_cons_of_notMem, ih, List.erase_cons_tail (by simpa using hc),
          List.cons_append]
        rw [List.mem_append, List.mem_singleton]
        exact not_or.mpr ⟨hmem, hc⟩

omit [FirewallFloat φ] in
/-- A call keeps the order of the last checks. -/
theorem sublist_lruStep {cs : List UInt32} (h : l.Sublist cs.dedup) (x : Op) :
    (lruStep r.config.enabled l x).Sublist (cs ++ r.checkedIp x).dedup := by
  have hnone {l' : List UInt32} (hl' : l'.Sublist cs.dedup) : l'.Sublist (cs ++ []).dedup := by
    rwa [List.append_nil]
  cases x with
  | check ip nowUs =>
    rw [checkedIp, lruStep]
    cases r.config.enabled with
    | false => rwa [if_neg Bool.false_ne_true, List.append_nil]
    | true =>
      rw [if_pos rfl, dedup_concat]
      have herase := h.erase ip
      split
      · contradiction
      · split
        · exact herase.append_right _
        · rename_i hmem
          rw [List.erase_of_not_mem hmem] at herase
          refine List.Sublist.append_right ?_ _
          split
          · exact (List.drop_sublist ..).trans herase
          · exact herase
  | reset ip => exact hnone (List.erase_sublist.trans h)
  | clear => exact List.nil_sublist _
  | setEnabled enabled => exact hnone h
  | setRate pps burst => exact hnone h

/-! ## A run -/

theorem Sound.step (h : r.Sound) (x : Op) :
    (r.step x).Sound ∧ (r.step x).order = lruStep r.config.enabled r.order x := by
  have hstep := h.holds.step x
  refine ⟨hstep.sound ?_, hstep.order_eq⟩
  rw [← hstep.length]
  exact length_lruStep _ x (h.length.trans_le h.few)

theorem Sound.run (h : r.Sound) {cs : List UInt32} (hcs : r.order.Sublist cs.dedup)
    (xs : List Op) : (GuardedRun.run RateLimiter.step r xs).Sound ∧
      (GuardedRun.run RateLimiter.step r xs).order.Sublist (cs ++ r.checked xs).dedup ∧
      GuardedRun.Meets RateLimiter.step
        (fun r x => (r.step x).order = lruStep r.config.enabled r.order x) r xs := by
  induction xs generalizing r cs with
  | nil => exact ⟨h, by rwa [checked, List.append_nil], trivial⟩
  | cons x xs ih =>
    obtain ⟨hsound, horder⟩ := h.step x
    have hsublist := sublist_lruStep (r := r) hcs x
    rw [← horder] at hsublist
    obtain ⟨hrun, hlast, hmeets⟩ := ih hsound hsublist
    rw [List.append_assoc] at hlast
    exact ⟨hrun, hlast, horder, hmeets⟩

omit [FirewallFloat φ] in
theorem sound_empty (config : Config) : ({ config } : RateLimiter φ).Sound :=
  (show ({ config } : RateLimiter φ).Holds [] from
    ⟨List.nodup_nil, nofun, DoublyLinked.Threads.empty, fun _ => ⟨nofun, nofun⟩⟩).sound
      (Nat.zero_le _)

/-- **The list of the buckets is sound in every run**: it consists of the buckets of the
table, in the order of the last checks that looked at it, and each call does to it what
`lruStep` says. -/
theorem lru_sound (config : Config) (xs : List Op) :
    let r := GuardedRun.run step ({ config } : RateLimiter φ) xs
    r.Sound ∧ r.order.Sublist (checked ({ config } : RateLimiter φ) xs).dedup ∧
      GuardedRun.Meets step (fun r x => (r.step x).order = lruStep r.config.enabled r.order x)
        ({ config } : RateLimiter φ) xs :=
  (sound_empty config).run (show List.Sublist [] (List.dedup []) from List.nil_sublist _) xs

/-- **A limiter that is switched off does not move the address it is asked about.** -/
theorem unmoved :
    ¬ (GuardedRun.run step ({ config := { enabled := true } } : RateLimiter Unit)
        [.check 1 0, .check 2 1, .setEnabled false, .check 1 2]).order.Sublist
      (checks [.check 1 0, .check 2 1, .setEnabled false, .check 1 2]).dedup := by
  decide

end RateLimiter
end NeuStack
