import InstagramArchive.OwnMediaAuthority

/-!
# Incremental synchronization leaves no gap

The provider serves the account's posts newest first from a list that only grows. A page is
a block of neighbouring posts, and a cursor stands for the number of posts that are older
than it, however many new ones arrive. Whatever the page sizes, the failures, the limits
and the restarts from the top, a completed run has every post from the oldest one up to its
watermark.
-/

namespace InstagramArchive

open Relational Relational.Tx

/-! ## Blocks of posts -/

/-- The posts at the positions from `lo` to `hi`, newest first; `posts` has the oldest one
first. -/
def block (posts : List String) (lo hi : Nat) : List String := ((posts.take hi).drop lo).reverse

def ProviderOwnMediaPage.ids (page : ProviderOwnMediaPage) : List String :=
  page.items.map ProviderOwnMediaItem.providerMediaId

theorem mem_block {posts : List String} {lo hi : Nat} {id : String} :
    id ∈ block posts lo hi ↔ ∃ i, lo ≤ i ∧ i < hi ∧ posts[i]? = some id := by
  rw [block, List.mem_reverse, List.mem_iff_getElem?]
  constructor
  · rintro ⟨k, hk⟩
    rw [List.getElem?_drop, List.getElem?_take] at hk
    split at hk
    · exact ⟨lo + k, by omega, by omega, hk⟩
    · cases hk
  · rintro ⟨i, hlo, hhi, hi⟩
    refine ⟨i - lo, ?_⟩
    have hsum : lo + (i - lo) = i := by omega
    rw [List.getElem?_drop, List.getElem?_take, hsum, if_pos hhi, hi]

/-- The newest post of a block stands right below its upper end. -/
theorem head?_block {posts : List String} {lo hi : Nat} {id : String} (hhi : hi ≤ posts.length)
    (h : (block posts lo hi).head? = some id) : lo < hi ∧ posts[hi - 1]? = some id := by
  rw [block, List.head?_reverse, List.getLast?_eq_getElem?, List.length_drop, List.length_take,
    Nat.min_eq_left hhi, List.getElem?_drop, List.getElem?_take] at h
  split at h
  · have hlt : lo < hi := by omega
    have hlast : lo + (hi - lo - 1) = hi - 1 := by omega
    exact ⟨hlt, hlast ▸ h⟩
  · cases h

theorem block_prefix {posts posts' : List String} (h : posts <+: posts') {lo hi : Nat}
    (hhi : hi ≤ posts.length) : block posts' lo hi = block posts lo hi := by
  obtain ⟨rest, rfl⟩ := h
  rw [block, block, List.take_append_of_le_length hhi]

/-! ## The provider -/

/-- How many posts are older than a cursor, when `cut` counts them. -/
def olderThan (cut : String → Nat) (otherwise : Nat) : Option String → Nat
  | none => otherwise
  | some cursor => cut cursor

/-- A page is a block from its next cursor up to its cursor. Without a cursor it starts at
the newest post, and without a next cursor it ends at the oldest. -/
def Serves (cut : String → Nat) (posts : List String) (request : OwnMediaRequest) :
    OwnMediaAnswer → Prop
  | .error _ => True
  | .ok page =>
    olderThan cut 0 page.nextCursor ≤ olderThan cut posts.length request.after ∧
      olderThan cut posts.length request.after ≤ posts.length ∧
      page.ids = block posts (olderThan cut 0 page.nextCursor)
        (olderThan cut posts.length request.after)

instance (cut : String → Nat) (posts : List String) (request : OwnMediaRequest) :
    (answer : OwnMediaAnswer) → Decidable (Serves cut posts request answer)
  | .error _ => instDecidableTrue
  | .ok _ => instDecidableAnd

/-- A page as a later provider would allow it: a first page may start anywhere. -/
def ServesBlock (cut : String → Nat) (posts : List String) (request : OwnMediaRequest) :
    OwnMediaAnswer → Prop
  | .error _ => True
  | .ok page => ∃ hi, olderThan cut 0 page.nextCursor ≤ hi ∧ hi ≤ posts.length ∧
      page.ids = block posts (olderThan cut 0 page.nextCursor) hi ∧
      ∀ cursor, request.after = some cursor → hi = cut cursor

theorem Serves.block {cut : String → Nat} {posts posts' : List String} (hp : posts <+: posts')
    {request : OwnMediaRequest} {answer : OwnMediaAnswer} (h : Serves cut posts request answer) :
    ServesBlock cut posts' request answer := by
  cases answer with
  | error e => trivial
  | ok page =>
    obtain ⟨hle, hhi, hids⟩ := h
    refine ⟨_, hle, hhi.trans hp.length_le, ?_, ?_⟩
    · rw [hids, block_prefix hp hhi]
    · intro cursor hcursor
      rw [hcursor]
      rfl

/-! ## What the machine covers -/

section Machine

variable {cut : String → Nat} {posts : List String} {m : Mirror} {t : Traversal}

/-- The post and every older one are in the catalogue. -/
def Covers (posts catalogue : List String) (id : String) : Prop :=
  ∃ q : Nat, posts[q]? = some id ∧ ∀ i ≤ q, ∀ older, posts[i]? = some older → older ∈ catalogue

theorem Covers.mono {catalogue catalogue' : List String} (h : catalogue ⊆ catalogue')
    {id : String} (hc : Covers posts catalogue id) : Covers posts catalogue' id := by
  obtain ⟨q, hq, hall⟩ := hc
  exact ⟨q, hq, fun i hi older ho => h (hall i hi older ho)⟩

/-- The posts a traversal has read below its candidate: all of them, or those down to its
cursor. -/
def Traversal.ReadsDown (cut : String → Nat) (posts : List String) (t : Traversal) : Prop :=
  ∀ id, t.candidate = some id → ∃ lo q : Nat, posts[q]? = some id ∧
    (∀ i, lo ≤ i → i ≤ q → ∀ older, posts[i]? = some older → older ∈ t.ids) ∧
    (lo = 0 ∨ ∃ cursor, t.cursor = some cursor ∧ cut cursor = lo)

/-- The last page is a block that ends at the cursor. -/
def Traversal.EndsBlock (cut : String → Nat) (posts : List String) (t : Traversal) : Prop :=
  ∀ cursor page, t.pages.getLast? = some (cursor, page) → ∃ lo hi,
    page.ids = block posts lo hi ∧ ∀ next, page.nextCursor = some next → cut next = lo

/-- The machine reads a feed. -/
structure Mirror.Reads (cut : String → Nat) (posts : List String) (m : Mirror) : Prop where
  completed : ∀ runId id, SyncEvent.completed runId (some id) ∈ m.log →
    Covers posts m.catalogue id
  watermark : ∀ id, m.watermark = some id → Covers posts m.catalogue id
  start : ∀ t, m.active = some t → ∀ id, t.start = some id → Covers posts m.catalogue id
  reads : ∀ t, m.active = some t → t.ReadsDown cut posts
  ends : ∀ t, m.active = some t → t.EndsBlock cut posts

/-- A page read where the traversal stands keeps it reading down without a gap. -/
theorem Traversal.ReadsDown.accept {page : ProviderOwnMediaPage} {request : OwnMediaRequest}
    (h : t.ReadsDown cut posts) (hrequest : request.after = t.cursor)
    (hanswer : ServesBlock cut posts request (.ok page)) :
    (t.accept t.cursor page).ReadsDown cut posts := by
  obtain ⟨hi, hle, hhi, hids, htop⟩ := hanswer
  obtain ⟨lo, hnext⟩ : ∃ lo, lo = olderThan cut 0 page.nextCursor := ⟨_, rfl⟩
  rw [← hnext] at hle hids
  have hread : ∀ i, lo ≤ i → i < hi → ∀ older, posts[i]? = some older →
      older ∈ (t.accept t.cursor page).ids := by
    intro i hlo hlt older ho
    rw [t.ids_accept]
    refine List.mem_append_right _ ?_
    change older ∈ page.ids
    rw [hids]
    exact mem_block.mpr ⟨i, hlo, hlt, ho⟩
  have hend : lo = 0 ∨ ∃ cursor, (t.accept t.cursor page).cursor = some cursor ∧ cut cursor = lo := by
    rw [t.cursor_accept]
    cases hcursor : page.nextCursor with
    | none =>
      rw [hcursor] at hnext
      exact Or.inl hnext
    | some cursor =>
      rw [hcursor] at hnext
      exact Or.inr ⟨cursor, rfl, hnext.symm⟩
  intro id hcandidate
  cases hc : t.candidate with
  | none =>
    -- the candidate is the newest post of this page
    have hhead : (block posts lo hi).head? = some id := by
      rw [t.candidate_accept, Walk.candidateAfter] at hcandidate
      rw [← hids, ProviderOwnMediaPage.ids, List.head?_map]
      simpa [Traversal.walk, hc] using hcandidate
    obtain ⟨hlt, hq⟩ := head?_block hhi hhead
    exact ⟨lo, hi - 1, hq, fun i hlo hi' => hread i hlo (by omega), hend⟩
  | some old =>
    have hold : old = id := by
      rw [t.candidate_accept, Walk.candidateAfter] at hcandidate
      simpa [Traversal.walk, hc] using hcandidate
    subst hold
    obtain ⟨lo₀, q, hq, hall, hcase⟩ := h old hc
    have hkept : ∀ i, lo₀ ≤ i → i ≤ q → ∀ older, posts[i]? = some older →
        older ∈ (t.accept t.cursor page).ids := by
      intro i hlo hi' older ho
      rw [t.ids_accept]
      exact List.mem_append_left _ (hall i hlo hi' older ho)
    rcases hcase with rfl | ⟨cursor, hcursor, hcut⟩
    · exact ⟨0, q, hq, hkept, Or.inl rfl⟩
    · -- the page continues right below what was read
      have hhi' : hi = lo₀ := (htop cursor (hrequest.trans hcursor)).trans hcut
      refine ⟨lo, q, hq, fun i hlo hi' older ho => ?_, hend⟩
      by_cases hbelow : i < hi
      · exact hread i hlo hbelow older ho
      · exact hkept i (by omega) hi' older ho

theorem Traversal.EndsBlock.accept {page : ProviderOwnMediaPage} {request : OwnMediaRequest}
    (hanswer : ServesBlock cut posts request (.ok page)) :
    (t.accept t.cursor page).EndsBlock cut posts := by
  obtain ⟨hi, -, -, hids, -⟩ := hanswer
  intro cursor last hlast
  simp only [Traversal.accept, List.getLast?_concat, Option.some.injEq, Prod.mk.injEq] at hlast
  obtain ⟨-, rfl⟩ := hlast
  refine ⟨_, hi, hids, fun next hcursor => ?_⟩
  rw [hcursor]
  rfl

/-- A finished traversal and the catalogue it started from cover its candidate. -/
theorem Mirror.Reads.finished (hposts : posts.Nodup) (h : m.Reads cut posts)
    (ha : m.active = some t) (hfinished : t.finished = true) {id : String}
    (hcandidate : t.candidate = some id) : Covers posts (m.catalogue ++ t.ids) id := by
  obtain ⟨lo, q, hq, hall, hcase⟩ := h.reads t ha id hcandidate
  refine ⟨q, hq, fun i hi older ho => List.mem_append.mpr ?_⟩
  by_cases hlo : lo ≤ i
  · exact Or.inr (hall i hlo hi older ho)
  -- below the last page the start of the traversal covers everything
  have hlast : ∃ cursor page, t.pages.getLast? = some (cursor, page) ∧
      t.walk.completes page = true := by
    cases hp : t.pages.getLast? with
    | none => simp [Traversal.finished, hp] at hfinished
    | some last => exact ⟨last.1, last.2, rfl, by simpa [Traversal.finished, hp] using hfinished⟩
  obtain ⟨cursor, page, hpage, hcompletes⟩ := hlast
  obtain ⟨cut', hcursor, hcut⟩ := hcase.resolve_left (by omega)
  have hnext : page.nextCursor = some cut' := by
    simpa [Traversal.cursor, hpage] using hcursor
  obtain ⟨lo', hi', hids, hends⟩ := h.ends t ha cursor page hpage
  have hstart : ∃ w, t.start = some w ∧ w ∈ page.ids := by
    simp only [Walk.completes, hnext, Option.isNone_some, Bool.and_false, Bool.or_false,
      Walk.reached, Traversal.walk] at hcompletes
    cases hs : t.start with
    | none => simp [hs] at hcompletes
    | some w =>
      rw [hs] at hcompletes
      simp only [Option.any_some, List.any_eq_true, decide_eq_true_eq] at hcompletes
      obtain ⟨item, hitem, hid⟩ := hcompletes
      exact ⟨w, rfl, List.mem_map.mpr ⟨item, hitem, hid⟩⟩
  obtain ⟨w, hw, hmem⟩ := hstart
  obtain ⟨p, hp, hcovered⟩ := h.start t ha w hw
  rw [hids] at hmem
  obtain ⟨k, hk, -, hkw⟩ := mem_block.mp hmem
  have hpk : p = k := by
    obtain ⟨hp₁, hp₂⟩ := List.getElem?_eq_some_iff.mp hp
    obtain ⟨hk₁, hk₂⟩ := List.getElem?_eq_some_iff.mp hkw
    exact hposts.getElem_inj_iff.mp (hp₂.trans hk₂.symm)
  have hcutlo := hends cut' hnext
  exact Or.inl (hcovered i (by omega) older ho)

/-- **What every event keeps.** -/
theorem Mirror.Reads.apply (hposts : posts.Nodup) {e : SyncEvent}
    (ha : m.Allows (ServesBlock cut posts) e) (h : m.Reads cut posts) :
    (m.apply e).Reads cut posts := by
  have hcompleted : (∀ runId watermark, e ≠ .completed runId watermark) →
      ∀ runId id, SyncEvent.completed runId (some id) ∈ m.log ++ [e] →
        Covers posts m.catalogue id := by
    intro hne runId id hlog
    rcases List.mem_append.mp hlog with hlog | hlog
    · exact h.completed runId id hlog
    · exact (hne _ _ (List.mem_singleton.mp hlog).symm).elim
  cases e with
  | noop | closed =>
    exact ⟨hcompleted (by simp), h.watermark, fun t ht => (by cases ht), fun t ht => (by cases ht),
      fun t ht => (by cases ht)⟩
  | opened accountId runId generationId =>
    refine ⟨hcompleted (by simp), h.watermark, ?_, ?_, ?_⟩
    · rintro t ht id hid
      cases ht
      exact h.watermark id hid
    · rintro t ht id hid
      cases ht
      cases hid
    · rintro t ht cursor page hlast
      cases ht
      cases hlast
  | resumed runId | suspended runId =>
    obtain ⟨t, hm, -⟩ := ha
    refine ⟨hcompleted (by simp), h.watermark, ?_, ?_, ?_⟩
    all_goals
      intro t' ht'
      simp only [Mirror.apply, Mirror.move, hm, Option.map_some, Option.some.injEq] at ht'
      subst ht'
    · exact h.start t hm
    · exact h.reads t hm
    · exact h.ends t hm
  | accepted runId cursor page =>
    obtain ⟨t, ⟨hm, rfl⟩, rfl, request, hrequest, hanswer⟩ := ha
    refine ⟨hcompleted (by simp), h.watermark, ?_, ?_, ?_⟩
    all_goals
      intro t' ht'
      simp only [Mirror.apply, Mirror.move, hm, Option.map_some, Option.some.injEq] at ht'
      subst ht'
    · exact h.start t hm
    · exact (h.reads t hm).accept hrequest hanswer
    · exact .accept hanswer
  | completed runId watermark =>
    obtain ⟨t, ⟨hm, rfl⟩, hfinished, hwatermark⟩ := ha
    have hcatalogue : (m.apply (.completed t.runId watermark)).catalogue =
        m.catalogue ++ t.ids := by
      simp [Mirror.apply, Mirror.move, hm]
    have hnew : ∀ id, watermark = some id → Covers posts (m.catalogue ++ t.ids) id :=
      fun id hid => h.finished hposts hm hfinished (hwatermark.symm.trans hid)
    refine ⟨?_, ?_, fun t ht => (by cases ht), fun t ht => (by cases ht), fun t ht => (by cases ht)⟩
    · rw [hcatalogue]
      intro runId id hlog
      rcases List.mem_append.mp hlog with hlog | hlog
      · exact (h.completed runId id hlog).mono (List.subset_append_left _ _)
      · cases List.mem_singleton.mp hlog
        exact hnew id rfl
    · rw [hcatalogue]
      exact hnew

end Machine

/-! ## The feed and the system -/

/-- One account's synchronization and the posts of the account, the oldest one first. -/
structure FeedSystem where
  sync : SyncSystem
  posts : List String

inductive FeedAction where
  | post (id : String)
  | sync (action : SyncAction)

def FeedAction.sync? : FeedAction → Option SyncAction
  | .post _ => none
  | .sync a => some a

def feedStep (lib : Externals) (keys : CredentialKeyring) (accountId : Uuid) (s : FeedSystem) :
    FeedAction → FeedSystem
  | .post id => { s with posts := s.posts ++ [id] }
  | .sync a => { s with sync := syncStep lib keys accountId s.sync a }

/-- A post is new, and the provider serves the posts there are. -/
def FeedSystem.Served (cut : String → Nat) (s : FeedSystem) : FeedAction → Prop
  | .post id => id ∉ s.posts
  | .sync a => s.sync.Answered (Serves cut s.posts) a

instance (cut : String → Nat) (s : FeedSystem) : (a : FeedAction) → Decidable (s.Served cut a)
  | .post id => inferInstanceAs (Decidable (id ∉ s.posts))
  | .sync a => inferInstanceAs (Decidable (s.sync.Answered (Serves cut s.posts) a))

section Feed

variable {lib : Externals} {keys : CredentialKeyring} {accountId : Uuid} {cut : String → Nat}
  {s : FeedSystem} {actions : List FeedAction}

theorem feed_posts_prefix : s.posts <+: (run (feedStep lib keys accountId) s actions).posts := by
  induction actions generalizing s with
  | nil => exact List.prefix_rfl
  | cons a rest ih =>
    refine List.IsPrefix.trans ?_ (ih (s := feedStep lib keys accountId s a))
    cases a with
    | post id => exact List.prefix_append s.posts [id]
    | sync a => exact List.prefix_rfl

theorem feed_posts_nodup (h : Guarded (feedStep lib keys accountId) (FeedSystem.Served cut) s actions)
    (hs : s.posts.Nodup) : (run (feedStep lib keys accountId) s actions).posts.Nodup := by
  refine run_invariant _ (FeedSystem.Served cut) (fun s => s.posts.Nodup) ?_ h hs
  intro s a ha hn
  cases a with
  | post id => simpa [feedStep] using hn.concat ha
  | sync a => exact hn

/-- The synchronization in a run with a feed is a run of its own. -/
theorem feed_sync : (run (feedStep lib keys accountId) s actions).sync =
    run (syncStep lib keys accountId) s.sync (actions.filterMap FeedAction.sync?) := by
  induction actions generalizing s with
  | nil => rfl
  | cons a rest ih =>
    rw [run_cons, ih]
    cases a <;> rfl

/-- In it every page is a block of the posts there are in the end. -/
theorem feed_answered (h : Guarded (feedStep lib keys accountId) (FeedSystem.Served cut) s actions)
    {posts : List String} (hp : (run (feedStep lib keys accountId) s actions).posts <+: posts) :
    Guarded (syncStep lib keys accountId) (SyncSystem.Answered (ServesBlock cut posts)) s.sync
      (actions.filterMap FeedAction.sync?) := by
  induction actions generalizing s with
  | nil => trivial
  | cons a rest ih =>
    cases a with
    | post id => exact ih (s := feedStep lib keys accountId s (.post id)) h.2 hp
    | sync a =>
      refine ⟨?_, ih (s := feedStep lib keys accountId s (.sync a)) h.2 hp⟩
      have hposts : s.posts <+: posts := feed_posts_prefix.trans hp
      cases a with
      | advance env answer =>
        exact fun request hrequest => (h.1 request hrequest).block hposts
      | _ => trivial

/-- **No gap.** In every history of posts and passes, every completed watermark is a post,
and every post up to it is visible. -/
theorem own_media_coverage (lib : Externals) (keys : CredentialKeyring) {accountId : Uuid}
    {db : Db} (h : Untouched accountId db) {cut : String → Nat} {posts : List String}
    (hposts : posts.Nodup) {actions : List FeedAction}
    (hg : Guarded (feedStep lib keys accountId) (FeedSystem.Served cut)
      ⟨SyncSystem.start db, posts⟩ actions) :
    let s := run (feedStep lib keys accountId) ⟨SyncSystem.start db, posts⟩ actions
    ∀ runId id, SyncEvent.completed runId (some id) ∈ s.sync.history →
      ∃ older newer, s.posts = older ++ id :: newer ∧
        ∀ post ∈ older ++ [id], ∃ i ∈ visibleItems accountId s.sync.db,
          i.providerMediaId = post := by
  intro s runId id hcompleted
  have hnodup : s.posts.Nodup := feed_posts_nodup hg hposts
  obtain ⟨provider, hprovider⟩ := provider_exists accountId db
  obtain ⟨hsound, hreads⟩ := sync_run_sound lib keys (I := Mirror.Reads cut s.posts)
    ⟨nofun, nofun, nofun, nofun, nofun⟩ (fun m e ha hm => hm.apply hnodup ha) h hprovider
    (feed_answered hg List.prefix_rfl)
  have hsync : s.sync = run (syncStep lib keys accountId) (SyncSystem.start db)
      (actions.filterMap FeedAction.sync?) := feed_sync
  rw [← hsync] at hsound hreads
  rw [← Mirror.log_replay s.sync.history] at hcompleted
  obtain ⟨q, hq, hcovered⟩ := hreads.completed runId id hcompleted
  obtain ⟨hlt, hget⟩ := List.getElem?_eq_some_iff.mp hq
  have hsplit : s.posts = s.posts.take q ++ id :: s.posts.drop (q + 1) := by
    rw [← hget, ← List.drop_eq_getElem_cons hlt, List.take_append_drop]
  refine ⟨s.posts.take q, s.posts.drop (q + 1), hsplit, fun post hpost => ?_⟩
  refine hsound.represents.mem_catalogue.mp ?_
  rcases List.mem_append.mp hpost with hpost | hpost
  · obtain ⟨i, hi⟩ := List.mem_iff_getElem?.mp hpost
    rw [List.getElem?_take] at hi
    split at hi
    · exact hcovered i (by omega) post hi
    · cases hi
  · rw [List.mem_singleton.mp hpost]
    exact hcovered q le_rfl id hq

end Feed

/-- Two posts are read one page at a time, and a third one arrives between the pages. -/
def interruptedFeed : List FeedAction :=
  (onePass (pageByPage 2) 100 (.ok (ownPage ["b"] (some "after b")))).map .sync ++
    [.post "c"] ++ (onePass (pageByPage 2) 500 (.ok (ownPage ["a"] none))).map .sync

theorem own_media_coverage_interrupted :
    let s := run (feedStep reference plainKeys 1) ⟨SyncSystem.start connectedDb, ["a", "b"]⟩
      interruptedFeed
    .completed 164 (some "b") ∈ s.sync.history ∧
      ∃ older newer, s.posts = older ++ "b" :: newer ∧
        ∀ post ∈ older ++ ["b"], ∃ i ∈ visibleItems 1 s.sync.db, i.providerMediaId = post :=
  have hcompleted : SyncEvent.completed 164 (some "b") ∈
      (run (feedStep reference plainKeys 1) ⟨SyncSystem.start connectedDb, ["a", "b"]⟩
        interruptedFeed).sync.history := by decide +kernel
  have hserved : Guarded (feedStep reference plainKeys 1)
      (FeedSystem.Served fun cursor => if cursor = "after b" then 1 else 0)
      ⟨SyncSystem.start connectedDb, ["a", "b"]⟩ interruptedFeed := by decide +kernel
  ⟨hcompleted, own_media_coverage reference plainKeys connectedDb_untouched (by decide) hserved 164
    "b" hcompleted⟩

end InstagramArchive
