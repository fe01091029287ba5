import TurfSync.Services.Images
import TurfSync.Txn.Solo
import TurfSync.Txn.Journal

/-! Whether uploaded images are lost. An upload adds its image to whatever the row holds; a
deletion writes back the images it has read before it called Cloudinary, so an image that
was added in between is lost and one that was deleted in between comes back. The images are
the right ones as long as every deletion still finds the images it has read, apart from the
one it removes. -/

namespace TurfSync.Images

open Txn Journal
open Pages (File Uploaded)

section

variable {cfg : Config} {c : Session Call} {w : World}

/-! ### The entries of a request -/

/-- What a request does next, after `past`: an upload draws the next answer of Cloudinary
and pushes its URL, a deletion reads the images and writes them without its URL. -/
inductive Acts (cfg : Config) (past : List Entry) (e : Entry) : Prop
  | upload {turfId file n} (call : e.session.call = .uploadTurfImage turfId file)
      (start : own e.session.id past = []) (writes : e.writes = [.uploaded n])
      (drawn : e.before.uploads = n + 1) (new : ∀ e' ∈ past, e'.before.uploads ≤ n)
  | push {turfId file n url now u} (call : e.session.call = .uploadTurfImage turfId file)
      (start : own e.session.id past = [u]) (uploaded : u.writes = [.uploaded n])
      (answer : cfg.uploaded n = .result (some url))
      (found : (imagesOf e.before.turfs turfId).isSome) (writes : e.writes = [.push turfId url now])
  | read {turfId imageUrl images} (call : e.session.call = .deleteTurfImage turfId imageUrl)
      (start : own e.session.id past = []) (writes : e.writes = [.seen turfId images])
      (found : imagesOf e.before.turfs turfId = some images)
  | remove {turfId imageUrl images now u} (call : e.session.call = .deleteTurfImage turfId imageUrl)
      (start : own e.session.id past = [u]) (seen : u.writes = [.seen turfId images])
      (mem : imageUrl ∈ images) (found : (imagesOf e.before.turfs turfId).isSome)
      (writes : e.writes = [.set turfId (images.filter (· ≠ imageUrl)) now])

/-- The reply of a request that has made the entry. -/
def replyOf (e : Entry) : Option Reply :=
  match e.writes with
  | [.push _ imageUrl _] => some (.imageUrl imageUrl)
  | [.set _ _ _] => some .success
  | _ => none

/-- A request succeeds exactly with its last entry. -/
def Answers (c : Session Call) (r : Except Err Reply) (_ : Local Empty Write) (w : World) : Prop :=
  (∀ e ∈ own c.id w.history, e.session = c ∧ ∀ a, replyOf e = some a → r = .ok a) ∧
    ∀ a, r = .ok a → ∃ e ∈ own c.id w.history, replyOf e = some a

/-- The uploads that the entries have found. -/
def World.Counted (w : World) : Prop := ∀ e ∈ w.history, e.before.uploads ≤ w.uploads

theorem kept (cfg : Config) :
    Journal.Kept (engine cfg) World.history World.moment fun _ _ => True where
  refl _ := trivial
  trans _ _ := trivial
  act s v w := by
    refine ⟨?_, trivial⟩
    cases s with
    | uploadStream folder => rfl
    | destroy publicId => rfl
    | findImages id | pushImage id imageUrl | setImages id images =>
      simp only [engine, Stmt.act]
      split <;> rfl
  commit _ _ _ := ⟨rfl, trivial⟩

theorem counted_act (s : Stmt) (v w : World) (h : w.Counted) :
    World.Counted ((engine cfg).act s v w).world := by
  cases s with
  | uploadStream folder => exact fun e he => Nat.le_succ_of_le (h e he)
  | destroy publicId => exact h
  | findImages id | pushImage id imageUrl | setImages id images =>
    simp only [engine, Stmt.act]
    split <;> exact h

theorem counted_commit (ws : List Write) (h : w.Counted) :
    World.Counted ((engine cfg).commit c ws w) := by
  intro e he
  rcases List.mem_append.mp he with he | he
  · exact h e he
  · rw [List.mem_singleton.mp he]
    exact le_rfl

abbrev rules (cfg : Config) : Rules Stmt Empty Write World Call :=
  Journal.rules World.history World.moment (fun _ _ => True) World.Counted (Acts cfg)

theorem lawful (cfg : Config) : (rules cfg).Lawful (engine cfg) :=
  Journal.rules_lawful (kept cfg) counted_act fun _ _ _ h _ _ => counted_commit _ h

/-! ### The requests -/

section

variable {es : List Entry} {α : Type} {Q : Post Err Empty Write World α}

abbrev Holds (cfg : Config) (c : Session Call) (es : List Entry) (p : Op α)
    (Q : Post Err Empty Write World α) : Prop :=
  Journal.Holds (engine cfg) World.history (rules cfg) c es p Q

theorem holds_uploadStream {folder : String} {f : Uploaded → Op α}
    (hact : ∀ past m n, own c.id past = es → m.uploads = n + 1 →
      (∀ e ∈ past, e.before.uploads ≤ n) → Acts cfg past ⟨c, [.uploaded n], m⟩)
    (h : ∀ m n, Holds cfg c (es ++ [⟨c, [.uploaded n], m⟩]) (f (cfg.uploaded n)) Q)
    (hf : ∀ e, Holds cfg c es (.throw e) Q) :
    Holds cfg c es ((perform (.uploadStream folder)).bind f) Q := by
  refine holds_stmt (kept cfg) (lawful cfg) (fun w hw hes => ⟨fun hws => ?_, fun _ => ?_⟩) (hf _)
  · exact (List.cons_ne_nil _ _ hws).elim
  · exact ⟨hact _ _ _ hes rfl hw, h _ _⟩

theorem holds_findImages {id : TurfId} {f : Option (List String) → Op α}
    (hact : ∀ past m images, own c.id past = es → imagesOf m.turfs id = some images →
      Acts cfg past ⟨c, [.seen id images], m⟩)
    (hnone : Holds cfg c es (f none) Q)
    (h : ∀ m images, Holds cfg c (es ++ [⟨c, [.seen id images], m⟩]) (f (some images)) Q)
    (hf : ∀ e, Holds cfg c es (.throw e) Q) :
    Holds cfg c es ((perform (.findImages id)).bind f) Q := by
  refine holds_stmt (kept cfg) (lawful cfg) (fun w hw hes => ?_) (hf _)
  simp only [engine, Stmt.act]
  cases hfound : imagesOf w.turfs id with
  | none => exact ⟨fun _ => hnone, fun hws => absurd rfl hws⟩
  | some images =>
    exact ⟨fun hws => (List.cons_ne_nil _ _ hws).elim, fun _ => ⟨hact _ _ _ hes hfound, h _ _⟩⟩

/-- A statement that writes to the row of a turf, if there is one. -/
theorem holds_row {s : Stmt} {r : s.Reply} {e₀ : Err} {id : TurfId} {x : Time → Write}
    {f : s.Reply → Op α}
    (hs : ∀ w, (engine cfg).act s w w = match imagesOf w.turfs id with
      | none => ⟨.error e₀, [], [], w⟩
      | some _ => ⟨.ok r, [], [x w.now], w⟩)
    (hact : ∀ past m now, own c.id past = es → (imagesOf m.turfs id).isSome →
      Acts cfg past ⟨c, [x now], m⟩)
    (h : ∀ m now, Holds cfg c (es ++ [⟨c, [x now], m⟩]) (f r) Q)
    (hf : ∀ e, Holds cfg c es (.throw e) Q) : Holds cfg c es ((perform s).bind f) Q := by
  refine holds_stmt (kept cfg) (lawful cfg) (fun w hw hes => ?_) (hf _)
  rw [hs]
  cases hfound : imagesOf w.turfs id with
  | none => exact ⟨fun _ => hf _, fun hws => absurd rfl hws⟩
  | some found =>
    exact ⟨fun hws => (List.cons_ne_nil _ _ hws).elim,
      fun _ => ⟨hact _ _ _ hes (Option.isSome_of_eq_some hfound), h _ _⟩⟩

theorem holds_pushImage {id : TurfId} {imageUrl : String} {f : Unit → Op α}
    (hact : ∀ past m now, own c.id past = es → (imagesOf m.turfs id).isSome →
      Acts cfg past ⟨c, [.push id imageUrl now], m⟩)
    (h : ∀ m now, Holds cfg c (es ++ [⟨c, [.push id imageUrl now], m⟩]) (f ()) Q)
    (hf : ∀ e, Holds cfg c es (.throw e) Q) :
    Holds cfg c es ((perform (.pushImage id imageUrl)).bind f) Q :=
  holds_row (s := .pushImage id imageUrl) (x := .push id imageUrl) (fun _ => rfl) hact h hf

theorem holds_setImages {id : TurfId} {images : List String} {f : Unit → Op α}
    (hact : ∀ past m now, own c.id past = es → (imagesOf m.turfs id).isSome →
      Acts cfg past ⟨c, [.set id images now], m⟩)
    (h : ∀ m now, Holds cfg c (es ++ [⟨c, [.set id images now], m⟩]) (f ()) Q)
    (hf : ∀ e, Holds cfg c es (.throw e) Q) :
    Holds cfg c es ((perform (.setImages id images)).bind f) Q :=
  holds_row (s := .setImages id images) (x := .set id images) (fun _ => rfl) hact h hf

theorem holds_deleteImage {imageUrl : String} {f : Unit → Op α} (h : Holds cfg c es (f ()) Q)
    (hf : ∀ e, Holds cfg c es (.throw e) Q) :
    Holds cfg c es ((UploadService.deleteImage imageUrl).bind f) Q := by
  intro w _ hes w' hr hi
  have hes' := (own_rely hr).trans hes
  exact ⟨fun _ => ⟨fun _ hws => (nomatch hws), h w' hi hes'⟩, fun _ => hf _ w' hi hes'⟩

end

/-- A request fails if it has pushed and written nothing. -/
theorem holds_fails {es : List Entry} (h : ∀ e ∈ es, e.session = c ∧ replyOf e = none) (e : Err) :
    Holds cfg c es (.throw e : Op Reply) (Answers c) := by
  refine holds_throw fun w _ hes => ?_
  rw [Answers, hes]
  refine ⟨fun e' he => ⟨(h e' he).1, fun a ha => ?_⟩, fun a ha => (nomatch ha)⟩
  rw [(h e' he).2] at ha
  cases ha

/-- A request succeeds with its last entry. -/
theorem holds_succeeds {es : List Entry} {e : Entry} {a : Reply} (he : e.session = c)
    (ha : replyOf e = some a) (h : ∀ e ∈ es, e.session = c ∧ replyOf e = none) :
    Holds cfg c (es ++ [e]) (.ret a) (Answers c) := by
  refine holds_ret fun w _ hes => ?_
  rw [Answers, hes]
  constructor
  · intro e' he'
    rcases List.mem_append.mp he' with he' | he'
    · refine ⟨(h e' he').1, fun a' ha' => ?_⟩
      rw [(h e' he').2] at ha'
      cases ha'
    · rw [List.mem_singleton.mp he']
      refine ⟨he, fun a' ha' => ?_⟩
      rw [Option.some.inj (ha.symm.trans ha')]
  · intro a' ha'
    obtain rfl := Except.ok.inj ha'
    exact ⟨e, by simp, ha⟩

theorem uploadTurfImage_holds {turfId : TurfId} {file : File}
    (call : c.call = .uploadTurfImage turfId file) :
    Holds cfg c [] (UploadController.uploadTurfImage turfId file) (Answers c) := by
  have hstart : ∀ e, Holds cfg c [] (.throw e : Op Reply) (Answers c) := holds_fails (by simp)
  unfold UploadController.uploadTurfImage UploadService.uploadTurfImages
  simp only [Prog.bind_eq, Prog.pure_eq]
  split_ifs
  · exact hstart _
  · rw [Prog.bind_assoc]
    refine holds_uploadStream (fun past m n hown hm hnew => .upload call hown rfl hm hnew)
      (fun m n => ?_) hstart
    have huploaded : ∀ e ∈ [(⟨c, [.uploaded n], m⟩ : Entry)], e.session = c ∧ replyOf e = none := by
      simp [replyOf]
    cases hanswer : cfg.uploaded n with
    | error => exact holds_fails huploaded _
    | result secure_url =>
      simp only
      split_ifs with hempty
      · exact holds_fails huploaded _
      · obtain ⟨url, rfl⟩ : ∃ url, secure_url = some url := by
          cases secure_url with
          | none => exact absurd rfl hempty
          | some url => exact ⟨url, rfl⟩
        exact holds_pushImage (fun past m' now hown hfound => .push call hown rfl hanswer hfound rfl)
          (fun m' now => holds_succeeds rfl rfl huploaded) (holds_fails huploaded)
  · exact hstart _

theorem deleteTurfImage_holds {turfId : TurfId} {imageUrl : String}
    (call : c.call = .deleteTurfImage turfId imageUrl) :
    Holds cfg c [] (UploadController.deleteTurfImage turfId imageUrl) (Answers c) := by
  have hstart : ∀ e, Holds cfg c [] (.throw e : Op Reply) (Answers c) := holds_fails (by simp)
  unfold UploadController.deleteTurfImage
  simp only [Prog.bind_eq, Prog.pure_eq]
  refine holds_findImages (fun past m images hown hm => .read call hown rfl hm) (hstart _)
    (fun m images => ?_) hstart
  have hseen : ∀ e ∈ [(⟨c, [.seen turfId images], m⟩ : Entry)], e.session = c ∧ replyOf e = none := by
    simp [replyOf]
  simp only
  split_ifs with hmem
  · exact holds_deleteImage (holds_setImages
      (fun past m' now hown hfound => .remove call hown rfl hmem hfound rfl)
      (fun m' now => holds_succeeds rfl rfl hseen) (holds_fails hseen)) (holds_fails hseen)
  · exact holds_fails hseen _

theorem service_lawful (cfg : Config) : Lawful (service cfg) World.history World.moment
    (fun _ _ => True) World.Counted (Acts cfg) Answers where
  kept := kept cfg
  act := counted_act
  commit _ _ _ h _ _ := counted_commit _ h
  evolve _ _ h := h
  moves _ _ := ⟨rfl, trivial⟩
  body c := by
    cases hcall : c.call with
    | uploadTurfImage turfId file => exact uploadTurfImage_holds hcall
    | deleteTurfImage turfId imageUrl => exact deleteTurfImage_holds hcall

abbrev Sys.Keeps (cfg : Config) (s : Sys) : Prop :=
  Journal.Keeps (service cfg) World.history World.moment (fun _ _ => True) World.Counted (Acts cfg)
    Answers s

/-- A system in which nothing has been called. -/
structure Sys.Initial (s : Sys) : Prop where
  threads : s.threads = []
  history : s.world.history = []

theorem Sys.Initial.counted {s : Sys} (h : s.Initial) : s.world.Counted := by
  intro e he
  simp [h.history] at he

theorem Sys.Initial.always {s : Sys} {as : List Act} (h : s.Initial) :
    (service cfg).Always (Sys.Keeps cfg) s as :=
  (service_lawful cfg).always h.threads h.history h.counted

theorem Sys.Initial.keeps {s : Sys} (h : s.Initial) : s.Keeps cfg :=
  (@Sys.Initial.always cfg s [] h).last

theorem Sys.Keeps.step {s : Sys} (h : s.Keeps cfg) (a : Act) :
    Sys.Keeps cfg ((service cfg).step s a) :=
  Sound.step h (service_lawful cfg).rules (service_lawful cfg).starts
    (permits_any s a)

/-- What a step does to the rows: nothing, or what one entry says. -/
theorem Sys.Keeps.step_cases {s : Sys} (h : s.Keeps cfg) (a : Act) :
    (((service cfg).step s a).world.history = s.world.history ∧
      ((service cfg).step s a).world.turfs = s.world.turfs) ∨
    ∃ cm e, (service cfg).committed s a = some cm ∧ e.session = cm.session ∧
      e.writes = cm.writes ∧ e.before.turfs = s.world.turfs ∧ Acts cfg s.world.history e ∧
      ((service cfg).step s a).world.history = s.world.history ++ [e] ∧
      ((service cfg).step s a).world.turfs = e.writes.foldl Write.apply s.world.turfs := by
  have hact : ∀ st v w, ((service cfg).act st v w).world.turfs = w.turfs := by
    intro st v w
    cases st with
    | uploadStream folder => rfl
    | destroy publicId => rfl
    | findImages id | pushImage id imageUrl | setImages id images =>
      simp only [service, engine, Stmt.act]
      split <;> rfl
  rcases (service_lawful cfg).step_cases h World.turfs hact (fun _ _ => rfl) a with
    ⟨-, hjournal, hturfs⟩ | ⟨cm, hc, -, hjournal, hturfs, -, hpost, hw, -⟩
  · exact .inl ⟨hjournal, hturfs⟩
  · refine .inr ⟨cm, ⟨cm.session, cm.writes, cm.base.moment⟩, hc, rfl, rfl, hturfs, hpost, ?_, ?_⟩
    · rw [hw, ← hjournal]
      rfl
    · rw [hw, ← hturfs]
      rfl

/-! ### What the entries say of the images -/

/-- The images of a turf, none if there is no such turf. -/
def World.images (w : World) (id : TurfId) : List String := (imagesOf w.turfs id).getD []

/-- The URL has been pushed onto the images of the turf. -/
def Pushed (es : List Entry) (id : TurfId) (url : String) : Prop :=
  ∃ e ∈ es, ∃ now, e.writes = [.push id url now]

/-- The images of the turf have been written without the URL. -/
def Dropped (es : List Entry) (id : TurfId) (url : String) : Prop :=
  ∃ e ∈ es, e.session.call = .deleteTurfImage id url ∧ replyOf e = some .success

/-- The images of a turf, from the initial ones and the entries. -/
structure Accounted (initial : List String) (id : TurfId) (w : World) : Prop where
  images : ∀ url, url ∈ w.images id ↔
    (url ∈ initial ∨ Pushed w.history id url) ∧ ¬ Dropped w.history id url
  seen : ∀ e ∈ w.history, ∀ images, e.writes = [.seen id images] → ∀ url ∈ images,
    url ∈ initial ∨ Pushed w.history id url

section

variable {es : List Entry} {e : Entry} {id turfId : TurfId} {url : String} {turfs : List Turf}

theorem pushed_snoc : Pushed (es ++ [e]) id url ↔
    Pushed es id url ∨ ∃ now, e.writes = [.push id url now] := by
  simp [Pushed, or_and_right, exists_or]

theorem dropped_snoc : Dropped (es ++ [e]) id url ↔ Dropped es id url ∨
    e.session.call = .deleteTurfImage id url ∧ replyOf e = some .success := by
  simp [Dropped, or_and_right, exists_or]

theorem imagesOf_update {f : Turf → Turf} (hf : ∀ t, (f t).id = t.id) :
    imagesOf (Rows.update (·.id) [turfId] f turfs) id =
      if id = turfId then (Rows.lookup (·.id) id turfs).map fun t => (f t).images
      else imagesOf turfs id := by
  rw [imagesOf, Rows.lookup_update hf]
  simp only [List.mem_singleton]
  split_ifs
  · rw [Option.map_map]
    rfl
  · rfl

theorem imagesOf_push (now : Time) : imagesOf ((Write.push turfId url now).apply turfs) id =
    if id = turfId then (imagesOf turfs id).map (· ++ [url]) else imagesOf turfs id := by
  rw [Write.apply, imagesOf_update]
  · rw [imagesOf, Option.map_map]
    rfl
  · exact fun _ => rfl

theorem imagesOf_set (images : List String) (now : Time) :
    imagesOf ((Write.set turfId images now).apply turfs) id =
      if id = turfId then (imagesOf turfs id).map fun _ => images else imagesOf turfs id := by
  rw [Write.apply, imagesOf_update]
  · rw [imagesOf, Option.map_map]
    rfl
  · exact fun _ => rfl

/-- The URL of an image that has been dropped was there. -/
theorem Accounted.dropped {initial : List String} (h : Accounted initial id w)
    (hf : Follows (Acts cfg) w.history) (hurl : Dropped w.history id url) :
    url ∈ initial ∨ Pushed w.history id url := by
  obtain ⟨e, he, hcall, hreply⟩ := hurl
  obtain ⟨past, later, hsplit⟩ := List.append_of_mem he
  cases hf.post hsplit with
  | @remove turfId imageUrl images now u call start hseen hmem =>
    obtain ⟨rfl, rfl⟩ := Call.deleteTurfImage.inj (hcall.symm.trans call)
    have hu : u ∈ own e.session.id past := by simp [start]
    have hhistory : u ∈ w.history := by
      rw [hsplit]
      exact List.mem_append_left _ (mem_own.mp hu).1
    exact h.seen u hhistory images hseen _ hmem
  | read _ _ writes => simp [replyOf, writes] at hreply
  | upload call | push call =>
    rw [hcall] at call
    cases call

/-- Two requests draw different answers of Cloudinary. -/
theorem eq_of_uploaded (hf : Follows (Acts cfg) es) {u u' : Entry} {n : ℕ} (hu : u ∈ es)
    (hu' : u' ∈ es) (hn : u.writes = [.uploaded n]) (hn' : u'.writes = [.uploaded n]) : u = u' := by
  -- of two entries, the later one finds the upload of the earlier one counted
  have hlater : ∀ {u u' : Entry} {past later : List Entry}, u.writes = [.uploaded n] →
      u'.writes = [.uploaded n] → es = past ++ u :: later → u' ∉ later := by
    intro u u' past later hn hn' hsplit hmem
    obtain ⟨as, bs, hlater⟩ := List.append_of_mem hmem
    have hpast : es = (past ++ u :: as) ++ u' :: bs := by
      rw [hsplit, hlater]
      simp
    cases hf.post hsplit with
    | @upload _ _ m _ _ writes drawn =>
      obtain rfl : n = m := by simpa [hn] using writes
      cases hf.post hpast with
      | @upload _ _ m' _ _ writes' _ new =>
        obtain rfl : n = m' := by simpa [hn'] using writes'
        have hle := new u (by simp)
        omega
      | push _ _ _ _ _ writes' | read _ _ writes' | remove _ _ _ _ _ writes' =>
        rw [hn'] at writes'
        cases writes'
    | push _ _ _ _ _ writes | read _ _ writes | remove _ _ _ _ _ writes =>
      rw [hn] at writes
      cases writes
  by_contra hne
  rcases ordered hu hu' hne with ⟨past, later, hsplit, hmem⟩ | ⟨past, later, hsplit, hmem⟩
  · exact hlater hn hn' hsplit hmem
  · exact hlater hn' hn hsplit hmem

/-- Cloudinary gives every upload a URL of its own. -/
structure Distinct (cfg : Config) (initial : List String) : Prop where
  once : ∀ m n url, cfg.uploaded m = .result (some url) → cfg.uploaded n = .result (some url) → m = n
  new : ∀ n url, cfg.uploaded n = .result (some url) → url ∉ initial

variable {initial : List String}

/-- A URL that is pushed has not been pushed before. -/
theorem Acts.new (hact : Acts cfg es e) (hf : Follows (Acts cfg) es) (hd : Distinct cfg initial)
    {now : Time} (hw : e.writes = [.push turfId url now]) :
    url ∉ initial ∧ ∀ id, ¬ Pushed es id url := by
  cases hact with
  | @push _ _ n url' _ u _ start uploaded answer _ writes =>
    obtain rfl : url = url' := by
      rw [hw] at writes
      simp only [List.cons.injEq, Write.push.injEq, and_true] at writes
      exact writes.2.1
    refine ⟨hd.new n url answer, ?_⟩
    rintro id ⟨e', he', now', hw'⟩
    obtain ⟨past, later, hsplit⟩ := List.append_of_mem he'
    have hu := mem_own.mp (by simp [start] : u ∈ own e.session.id es)
    cases hf.post hsplit with
    | @push _ _ n' url' _ u' _ start' uploaded' answer' _ writes' =>
      obtain rfl : url = url' := by
        rw [hw'] at writes'
        simp only [List.cons.injEq, Write.push.injEq, and_true] at writes'
        exact writes'.2.1
      obtain rfl := hd.once n n' url answer answer'
      have hu' := mem_own.mp (by simp [start'] : u' ∈ own e'.session.id past)
      have hmem : u' ∈ es := by
        rw [hsplit]
        exact List.mem_append_left _ hu'.1
      obtain rfl := eq_of_uploaded hf hu.1 hmem uploaded uploaded'
      -- both pushes are of one request, which has made one entry before
      have hown : e' ∈ own e.session.id es := mem_own.mpr ⟨he', by rw [← hu.2, hu'.2]⟩
      rw [start, List.mem_singleton] at hown
      rw [hown, uploaded] at hw'
      cases hw'
    | upload _ _ writes' | read _ _ writes' | remove _ _ _ _ _ writes' =>
      rw [hw'] at writes'
      cases writes'
  | upload _ _ writes | read _ _ writes | remove _ _ _ _ _ writes =>
    rw [hw] at writes
    cases writes

/-! ### Steps -/

variable {w' : World}

/-- An entry that has read the images, or none. -/
theorem Accounted.seen_snoc (h : Accounted initial id w) (hhistory : w'.history = w.history ++ [e])
    (hseen : ∀ images, e.writes = [.seen id images] → ∀ url ∈ images, url ∈ w.images id) :
    ∀ e' ∈ w'.history, ∀ images, e'.writes = [.seen id images] → ∀ url ∈ images,
      url ∈ initial ∨ Pushed w'.history id url := by
  intro e' he' images hw url hurl
  have hkept : Pushed w.history id url → Pushed w'.history id url := by
    rw [hhistory, pushed_snoc]
    exact .inl
  rw [hhistory] at he'
  rcases List.mem_append.mp he' with he' | he'
  · exact (h.seen e' he' images hw url hurl).imp_right hkept
  · rw [List.mem_singleton.mp he'] at hw
    exact ((h.images url).mp (hseen images hw url hurl)).1.imp_right hkept

/-- An entry that leaves the images alone. -/
theorem Accounted.other (h : Accounted initial id w) (himages : w'.images id = w.images id)
    (hhistory : w'.history = w.history ++ [e])
    (hpush : ∀ url now, e.writes ≠ [.push id url now])
    (hdrop : ∀ url, ¬ (e.session.call = .deleteTurfImage id url ∧ replyOf e = some .success))
    (hseen : ∀ images, e.writes = [.seen id images] → ∀ url ∈ images, url ∈ w.images id) :
    Accounted initial id w' := by
  have hpushed : ∀ url, Pushed w'.history id url ↔ Pushed w.history id url := by
    intro url
    rw [hhistory, pushed_snoc, or_iff_left]
    rintro ⟨now, hw⟩
    exact hpush url now hw
  have hdropped : ∀ url, Dropped w'.history id url ↔ Dropped w.history id url := by
    intro url
    rw [hhistory, dropped_snoc, or_iff_left (hdrop url)]
  refine ⟨fun url => ?_, h.seen_snoc hhistory hseen⟩
  rw [himages, hpushed, hdropped]
  exact h.images url

/-- An image is pushed that is new. -/
theorem Accounted.push (h : Accounted initial id w) (hf : Follows (Acts cfg) w.history)
    (hhistory : w'.history = w.history ++ [e]) {now : Time} (hw : e.writes = [.push id url now])
    (himages : w'.images id = w.images id ++ [url])
    (hnew : url ∉ initial ∧ ∀ id, ¬ Pushed w.history id url) : Accounted initial id w' := by
  have hpushed : ∀ x, Pushed w'.history id x ↔ Pushed w.history id x ∨ x = url := by
    intro x
    rw [hhistory, pushed_snoc, hw]
    refine or_congr_right ⟨?_, ?_⟩
    · rintro ⟨now', he⟩
      simp only [List.cons.injEq, Write.push.injEq, and_true, true_and] at he
      exact he.1.symm
    · rintro rfl
      exact ⟨now, rfl⟩
  have hdropped : ∀ x, Dropped w'.history id x ↔ Dropped w.history id x := by
    intro x
    rw [hhistory, dropped_snoc, or_iff_left]
    rintro ⟨-, hreply⟩
    simp [replyOf, hw] at hreply
  have hundropped : ¬ Dropped w.history id url := fun hdrop =>
    (h.dropped hf hdrop).elim hnew.1 (hnew.2 id)
  refine ⟨fun x => ?_, h.seen_snoc hhistory (by simp [hw])⟩
  rw [himages, List.mem_append, List.mem_singleton, hpushed, hdropped, h.images x]
  constructor
  · rintro (⟨hx, hkept⟩ | rfl)
    · exact ⟨hx.imp_right .inl, hkept⟩
    · exact ⟨.inr (.inr rfl), hundropped⟩
  · rintro ⟨hx | hx | rfl, hkept⟩
    · exact .inl ⟨.inl hx, hkept⟩
    · exact .inl ⟨.inr hx, hkept⟩
    · exact .inr rfl

/-- The images are written without one of them. -/
theorem Accounted.remove (h : Accounted initial id w) (hhistory : w'.history = w.history ++ [e])
    {images : List String} {now : Time} (hw : e.writes = [.set id images now])
    (hcall : e.session.call = .deleteTurfImage id url)
    (himages : ∀ x, x ∈ w'.images id ↔ x ∈ w.images id ∧ x ≠ url) : Accounted initial id w' := by
  have hpushed : ∀ x, Pushed w'.history id x ↔ Pushed w.history id x := by
    intro x
    rw [hhistory, pushed_snoc, hw, or_iff_left]
    rintro ⟨_, he⟩
    cases he
  have hdropped : ∀ x, Dropped w'.history id x ↔ Dropped w.history id x ∨ x = url := by
    intro x
    rw [hhistory, dropped_snoc, hcall]
    refine or_congr_right ⟨?_, ?_⟩
    · rintro ⟨he, -⟩
      exact (Call.deleteTurfImage.inj he).2.symm
    · rintro rfl
      exact ⟨rfl, by rw [replyOf, hw]⟩
  refine ⟨fun x => ?_, h.seen_snoc hhistory (by simp [hw])⟩
  rw [himages, hpushed, hdropped, h.images x, not_or, and_assoc]

end

/-! ### Runs -/

/-- The images that a request has read. -/
def seenBy (n : ℕ) (es : List Entry) : Option (List String) :=
  (own n es).findSome? fun e => match e.writes with
    | [.seen _ images] => some images
    | _ => none

/-- If the step writes the images of the turf, they are still those that the request has
read, apart from the one that it removes. -/
def FindsRead (cfg : Config) (id : TurfId) (t : Sys) (a : Act) : Prop :=
  ∀ cm ∈ (service cfg).committed t a, match cm.session.call, cm.writes with
    | .deleteTurfImage turfId url, [.set _ _ _] => turfId = id →
      ∀ images ∈ seenBy cm.session.id t.world.history,
        images.filter (· ≠ url) = (t.world.images id).filter (· ≠ url)
    | _, _ => True

instance (cfg : Config) (id : TurfId) (t : Sys) (a : Act) : Decidable (FindsRead cfg id t a) :=
  decidable_of_iff (∀ cm ∈ (service cfg).committed t a, (match cm.session.call, cm.writes with
    | .deleteTurfImage turfId url, [.set _ _ _] => decide (turfId = id →
      ∀ images ∈ seenBy cm.session.id t.world.history,
        images.filter (· ≠ url) = (t.world.images id).filter (· ≠ url))
    | _, _ => true) = true) (forall₂_congr fun _ _ => by split <;> simp only [decide_eq_true_eq])

variable {initial : List String} {id : TurfId} {s : Sys}

theorem images_eq {w w' : World} (h : w'.turfs = w.turfs) : w'.images id = w.images id := by
  rw [World.images, World.images, h]

theorem accounted_step (hs : s.Keeps cfg) (hd : Distinct cfg initial)
    (h : Accounted initial id s.world) {a : Act} (hM : FindsRead cfg id s a) :
    Accounted initial id ((service cfg).step s a).world := by
  have hf : Follows (Acts cfg) s.world.history := hs.inv.2
  rcases hs.step_cases a with ⟨hhistory, hturfs⟩ |
    ⟨cm, e, hc, hsession, hwrites, hbefore, hact, hhistory, hturfs⟩
  · have himages : ((service cfg).step s a).world.images id = s.world.images id := images_eq hturfs
    exact ⟨fun url => by rw [himages, hhistory]; exact h.images url, by rw [hhistory]; exact h.seen⟩
  cases hact with
  | @upload turfId file n call start writes =>
    refine h.other (images_eq (by rw [hturfs, writes]; rfl)) hhistory ?_ ?_ ?_
    · simp [writes]
    · simp [call]
    · simp [writes]
  | @read turfId imageUrl images call start writes found =>
    refine h.other (images_eq (by rw [hturfs, writes]; rfl)) hhistory ?_ ?_ ?_
    · simp [writes]
    · simp [replyOf, writes]
    · intro images' hseen url hurl
      rw [writes] at hseen
      simp only [List.cons.injEq, Write.seen.injEq, and_true] at hseen
      obtain ⟨rfl, rfl⟩ := hseen
      rw [World.images, ← hbefore, found]
      exact hurl
  | @push turfId file n url now u call start uploaded answer found writes =>
    have hafter : imagesOf ((service cfg).step s a).world.turfs id =
        if id = turfId then (imagesOf s.world.turfs id).map (· ++ [url])
        else imagesOf s.world.turfs id := by
      rw [hturfs, writes]
      exact imagesOf_push now
    by_cases hid : id = turfId
    · subst hid
      obtain ⟨images, himages⟩ := Option.isSome_iff_exists.mp (hbefore ▸ found)
      refine h.push hf hhistory writes ?_ (Acts.new (.push call start uploaded answer found writes)
        hf hd writes)
      rw [World.images, World.images, hafter, if_pos rfl, himages]
      rfl
    · refine h.other (by rw [World.images, hafter, if_neg hid]; rfl) hhistory ?_ ?_ ?_
      · intro url' now' hw
        rw [writes] at hw
        simp only [List.cons.injEq, Write.push.injEq, and_true] at hw
        exact hid hw.1.symm
      · simp [replyOf, writes]
      · simp [writes]
  | @remove turfId url images now u call start seen mem found writes =>
    have hafter : imagesOf ((service cfg).step s a).world.turfs id =
        if id = turfId then (imagesOf s.world.turfs id).map fun _ => images.filter (· ≠ url)
        else imagesOf s.world.turfs id := by
      rw [hturfs, writes]
      exact imagesOf_set _ now
    by_cases hid : id = turfId
    · subst hid
      obtain ⟨current, hcurrent⟩ := Option.isSome_iff_exists.mp (hbefore ▸ found)
      have hread : seenBy cm.session.id s.world.history = some images := by
        rw [seenBy, ← hsession, start]
        simp [seen]
      have hsame := hM cm hc
      rw [← hsession, call, ← hwrites, writes, hsession, hread] at hsame
      have hsame' : images.filter (· ≠ url) = (s.world.images id).filter (· ≠ url) :=
        hsame rfl images rfl
      refine h.remove hhistory writes call fun x => ?_
      rw [World.images, hafter, if_pos rfl, hcurrent, Option.map_some, Option.getD_some, hsame']
      simp
    · refine h.other (by rw [World.images, hafter, if_neg hid]; rfl) hhistory ?_ ?_ ?_
      · simp [writes]
      · rintro url' ⟨hcall, -⟩
        rw [call] at hcall
        exact hid (Call.deleteTurfImage.inj hcall).1.symm
      · simp [writes]

theorem accounted_initial (hs : s.Initial) : Accounted (s.world.images id) id s.world := by
  refine ⟨fun url => ?_, fun e he => ?_⟩
  · simp [hs.history, Pushed, Dropped]
  · simp [hs.history] at he

/-! ### Requests that have succeeded -/

/-- An upload of the image has succeeded. -/
def Sys.Added (t : Sys) (id : TurfId) (url : String) : Prop :=
  ∃ i file, t.Ended i (.uploadTurfImage id file) (.ok (.imageUrl url))

/-- A deletion of the image has succeeded. -/
def Sys.Removed (t : Sys) (id : TurfId) (url : String) : Prop :=
  ∃ i, t.Ended i (.deleteTurfImage id url) (.ok .success)

/-- When no request is in progress, the images are the initial and the uploaded ones without
the deleted ones. -/
def Complete (initial : List String) (id : TurfId) (t : Sys) : Prop :=
  (∀ th ∈ t.threads, th.prog.result?.isSome) →
    ∀ url, url ∈ t.world.images id ↔ (url ∈ initial ∨ t.Added id url) ∧ ¬ t.Removed id url

/-- The entry of a request that has succeeded. -/
theorem entry_of_ended {t : Sys} (ht : t.Keeps cfg) {i : ℕ} {call : Call} {a : Reply}
    (he : t.Ended i call (.ok a)) :
    ∃ e ∈ t.world.history, e.session = ⟨i, call⟩ ∧ replyOf e = some a := by
  obtain ⟨l, hall, hlast⟩ := ht.post (service_lawful cfg).rules he
  obtain ⟨e, hmem, hreply⟩ := hlast a rfl
  exact ⟨e, (mem_own.mp hmem).1, (hall e hmem).1, hreply⟩

/-- When no request is in progress, one that has made its last entry has succeeded. -/
theorem ended_of_entry {t : Sys} (ht : t.Keeps cfg)
    (hended : ∀ th ∈ t.threads, th.prog.result?.isSome) {e : Entry} (he : e ∈ t.world.history)
    {a : Reply} (ha : replyOf e = some a) : t.Ended e.session.id e.session.call (.ok a) := by
  have hlt : e.session.id < t.threads.length := by
    by_contra hle
    exact ht.starts e.session.id (Nat.le_of_not_lt hle) e he rfl
  have hth : t.threads[e.session.id]? = some t.threads[e.session.id] :=
    List.getElem?_eq_getElem hlt
  generalize t.threads[e.session.id] = th at hth
  obtain ⟨r, hr⟩ := Option.isSome_iff_exists.mp (hended th (List.mem_of_getElem? hth))
  have hthread : t.Ended e.session.id th.session.call r := ⟨th, hth, rfl, hr⟩
  obtain ⟨l, hall, -⟩ := ht.post (service_lawful cfg).rules hthread
  obtain ⟨hsession, hreply⟩ := hall e (mem_own.mpr ⟨he, rfl⟩)
  have hcall : e.session.call = th.session.call := by rw [hsession]
  rw [← hreply a ha, hcall]
  exact hthread

theorem added_iff {t : Sys} (ht : t.Keeps cfg)
    (hended : ∀ th ∈ t.threads, th.prog.result?.isSome) {url : String} :
    t.Added id url ↔ Pushed t.world.history id url := by
  have hf : Follows (Acts cfg) t.world.history := ht.inv.2
  constructor
  · rintro ⟨i, file, he⟩
    obtain ⟨e, hmem, hsession, hreply⟩ := entry_of_ended ht he
    obtain ⟨past, later, hsplit⟩ := List.append_of_mem hmem
    refine ⟨e, hmem, ?_⟩
    cases hf.post hsplit with
    | push call _ _ _ _ writes =>
      rw [hsession] at call
      obtain ⟨rfl, -⟩ := Call.uploadTurfImage.inj call
      simp only [replyOf, writes, Option.some.injEq, Reply.imageUrl.injEq] at hreply
      exact ⟨_, hreply ▸ writes⟩
    | upload _ _ writes | read _ _ writes | remove _ _ _ _ _ writes => simp [replyOf, writes] at hreply
  · rintro ⟨e, hmem, now, hw⟩
    have he := ended_of_entry ht hended hmem (show replyOf e = some (.imageUrl url) by rw [replyOf, hw])
    obtain ⟨past, later, hsplit⟩ := List.append_of_mem hmem
    cases hf.post hsplit with
    | push call _ _ _ _ writes =>
      rw [hw] at writes
      simp only [List.cons.injEq, Write.push.injEq, and_true] at writes
      obtain ⟨rfl, -, -⟩ := writes
      exact ⟨_, _, call ▸ he⟩
    | upload _ _ writes | read _ _ writes | remove _ _ _ _ _ writes =>
      rw [hw] at writes
      cases writes

theorem removed_iff {t : Sys} (ht : t.Keeps cfg)
    (hended : ∀ th ∈ t.threads, th.prog.result?.isSome) {url : String} :
    t.Removed id url ↔ Dropped t.world.history id url := by
  constructor
  · rintro ⟨i, he⟩
    obtain ⟨e, hmem, hsession, hreply⟩ := entry_of_ended ht he
    exact ⟨e, hmem, by rw [hsession], hreply⟩
  · rintro ⟨e, hmem, hcall, hreply⟩
    exact ⟨_, hcall ▸ ended_of_entry ht hended hmem hreply⟩

/-- In every run in which every deletion finds the images that it has read: whenever no
request is in progress, no image of the turf is missing, and none is there that was deleted. -/
theorem complete_always (hs : s.Initial) (id : TurfId) (hd : Distinct cfg (s.world.images id))
    {as : List Act} (hM : (service cfg).Each (FindsRead cfg id) s as) :
    (service cfg).Always (Complete (s.world.images id) id) s as := by
  refine (Service.always_of_step (I := fun t => Sys.Keeps cfg t ∧
    Accounted (s.world.images id) id t.world) (fun t a ⟨ht, hacc⟩ hm => ⟨ht.step a,
      accounted_step ht hd hacc hm⟩) ⟨hs.keeps, accounted_initial hs⟩ hM).mono ?_
  intro t ⟨ht, hacc⟩ hended url
  rw [added_iff ht hended, removed_iff ht hended]
  exact hacc.images url

end

/-! ### One turf with one image -/

namespace Gallery

/-- The first two uploads go through. -/
def cfg : Config where
  uploaded n := if n = 0 then .result (some "b.jpg") else if n = 1 then .result (some "c.jpg")
    else .error

def turf : Turf where
  id := 1
  name := "Arena"
  description := "Seven a side"
  address := "Road"
  city := "Dhaka"
  sportType := .FOOTBALL
  pricePerHour := 1000
  openTime := ⟨18, 0⟩
  closeTime := ⟨20, 0⟩
  rating := 0
  isActive := true
  images := ["a.jpg"]
  createdAt := 0
  updatedAt := 0

def sys : Sys := ⟨⟨[turf], 0, 0, []⟩, []⟩

def upload : Call := .uploadTurfImage 1 ⟨1000, "image/png"⟩

def delete : Call := .deleteTurfImage 1 "a.jpg"

/-- Call `i` arrives and executes `n` statements. -/
def first (i : ℕ) (c : Call) (n : ℕ) : List Act := .spawn c :: List.replicate n (.run i)

theorem initial : sys.Initial := ⟨rfl, rfl⟩

theorem uploaded_iff {n : ℕ} {url : String} : cfg.uploaded n = .result (some url) ↔
    n = 0 ∧ url = "b.jpg" ∨ n = 1 ∧ url = "c.jpg" := by
  simp only [cfg]
  split_ifs with hzero hone
  · simp [hzero, eq_comm]
  · simp [hone, eq_comm]
  · simp [hzero, hone]

theorem distinct : Distinct cfg (sys.world.images 1) where
  once m n url hm hn := by
    rcases uploaded_iff.mp hm with ⟨rfl, rfl⟩ | ⟨rfl, rfl⟩
    · rcases uploaded_iff.mp hn with ⟨rfl, -⟩ | ⟨-, hurl⟩
      · rfl
      · exact absurd hurl (by decide)
    · rcases uploaded_iff.mp hn with ⟨-, hurl⟩ | ⟨rfl, -⟩
      · exact absurd hurl (by decide)
      · rfl
  new n url hn := by
    rcases uploaded_iff.mp hn with ⟨-, rfl⟩ | ⟨-, rfl⟩ <;> decide

end Gallery

/-- An upload whose image is pushed before a deletion reads. -/
theorem complete_gallery : (service Gallery.cfg).Always (Complete ["a.jpg"] 1) Gallery.sys
    (Gallery.first 0 Gallery.upload 1 ++ [.run 0] ++ Gallery.first 1 Gallery.delete 3) :=
  complete_always Gallery.initial 1 Gallery.distinct (by decide +kernel)

/-- An image is pushed after a deletion has read the images: both requests succeed, and the
image is gone. -/
theorem complete_fails :
    let t := (service Gallery.cfg).run Gallery.sys
      (Gallery.first 0 Gallery.delete 1 ++ Gallery.first 1 Gallery.upload 2 ++ [.run 0, .run 0])
    (∀ th ∈ t.threads, th.prog.result?.isSome) ∧ t.world.images 1 = [] ∧ Sys.Added t 1 "b.jpg" ∧
      ¬ Complete ["a.jpg"] 1 t := by
  intro t
  have hended : ∀ th ∈ t.threads, th.prog.result?.isSome := by decide +kernel
  have himages : t.world.images 1 = [] := by decide +kernel
  have hadded : Sys.Added t 1 "b.jpg" := ⟨1, ⟨1000, "image/png"⟩, by decide +kernel⟩
  refine ⟨hended, himages, hadded, fun h => ?_⟩
  have hmem : "b.jpg" ∈ t.world.images 1 := by
    refine (h hended "b.jpg").mpr ⟨.inr hadded, ?_⟩
    rintro ⟨i, th, hth, hcall, -⟩
    have hone : ∀ th ∈ t.threads, th.session.call ≠ .deleteTurfImage 1 "b.jpg" := by decide +kernel
    exact hone th (List.mem_of_getElem? hth) hcall
  rw [himages] at hmem
  cases hmem

/-! ### Requests that run alone

Then the statements do in sequence what the model of the turf pages does in one step. -/

section

variable {cfg : Config} {c : Session Call} {w : World} {v : Pages.World} {turfId : TurfId}

theorem solo_uploadStream (folder : String) :
    (engine cfg).solo c (perform (.uploadStream folder)) .idle w =
      (.ok (cfg.uploaded w.uploads), .idle,
        (engine cfg).commit c [.uploaded w.uploads] { w with uploads := w.uploads + 1 }) :=
  Engine.solo_perform_auto (S := Stmt) (engine cfg) c (.uploadStream folder) w

theorem solo_destroy (publicId : String) :
    (engine cfg).solo c (perform (.destroy publicId)) .idle w = (.ok (), .idle, w) :=
  Engine.solo_perform_read (S := Stmt) (engine cfg) c (.destroy publicId) w rfl

theorem solo_deleteImage (imageUrl : String) :
    (engine cfg).solo c (UploadService.deleteImage imageUrl) .idle w = (.ok (), .idle, w) := by
  rw [UploadService.deleteImage, Engine.solo_tryCatch, solo_destroy]

theorem imagesOf_turf (hturfs : w.turfs = v.db.turfs) :
    imagesOf w.turfs turfId = (v.db.turf? turfId).map (·.images) := by
  rw [imagesOf, hturfs]
  rfl

/-- The read of a turf writes no row. -/
theorem solo_findImages : ∃ w', (engine cfg).solo c (perform (.findImages turfId)) .idle w =
    (.ok (imagesOf w.turfs turfId), .idle, w') ∧ w'.turfs = w.turfs ∧ w'.now = w.now := by
  have hsolo := Engine.solo_perform_auto (S := Stmt) (engine cfg) c (.findImages turfId) w
  have hact : (engine cfg).act (.findImages turfId) w w = match imagesOf w.turfs turfId with
      | none => ⟨.ok none, [], [], w⟩
      | some images => ⟨.ok (some images), [], [.seen turfId images], w⟩ := rfl
  rw [perform, hsolo, hact]
  cases hfound : imagesOf w.turfs turfId with
  | none => exact ⟨w, rfl, rfl, rfl⟩
  | some images => exact ⟨_, rfl, rfl, rfl⟩

/-- A statement that writes to the row of a turf. -/
theorem solo_row {s : Stmt} {r : s.Reply} {e₀ : Err} {x : Time → Write}
    (hs : ∀ w, (engine cfg).act s w w = match imagesOf w.turfs turfId with
      | none => ⟨.error e₀, [], [], w⟩
      | some _ => ⟨.ok r, [], [x w.now], w⟩) :
    ∃ w', (engine cfg).solo c (perform s) .idle w =
        (if (imagesOf w.turfs turfId).isSome then .ok r else .error e₀, .idle, w') ∧
      w'.turfs = if (imagesOf w.turfs turfId).isSome then (x w.now).apply w.turfs else w.turfs := by
  have hsolo := Engine.solo_perform_auto (S := Stmt) (engine cfg) c s w
  rw [perform, hsolo, hs]
  cases hfound : imagesOf w.turfs turfId with
  | none => exact ⟨w, rfl, rfl⟩
  | some images => exact ⟨_, rfl, rfl⟩

/-- An upload that runs alone does what it does as one step. -/
theorem solo_uploadTurfImage (hturfs : w.turfs = v.db.turfs) (hnow : w.now = v.now) (file : File) :
    let r := (engine cfg).solo c (UploadController.uploadTurfImage turfId file) .idle w
    let p := Pages.UploadController.uploadTurfImage turfId file (cfg.uploaded w.uploads) v
    r.1 = p.1.map .imageUrl ∧ r.2.2.turfs = p.2.db.turfs := by
  simp only [UploadController.uploadTurfImage, UploadService.uploadTurfImages,
    Pages.UploadController.uploadTurfImage, Pages.UploadService.uploadTurfImages, Prog.bind_eq,
    Prog.pure_eq]
  by_cases hsize : 5 * 1024 * 1024 < file.size
  · simp only [if_pos hsize]
    exact ⟨rfl, hturfs⟩
  by_cases htype : file.mimetype ∉ ["image/jpeg", "image/png", "image/webp"]
  · simp only [if_neg hsize, if_pos htype]
    exact ⟨rfl, hturfs⟩
  have hupload := @solo_uploadStream cfg c w (UploadService.folder (toString turfId))
  simp only [if_neg hsize, if_neg htype, Engine.solo_bind, hupload, Engine.andThen_ok]
  cases hanswer : cfg.uploaded w.uploads with
  | error => exact ⟨rfl, hturfs⟩
  | result secure_url =>
    simp only
    by_cases hempty : secure_url.getD "" = ""
    · simp only [if_pos hempty]
      exact ⟨rfl, hturfs⟩
    obtain ⟨w', hrow, hafter⟩ := @solo_row cfg c ((engine cfg).commit c [.uploaded w.uploads]
      { w with uploads := w.uploads + 1 }) turfId (.pushImage turfId (secure_url.getD "")) () .P2025
      (.push turfId (secure_url.getD "")) fun _ => rfl
    have hfound : imagesOf ((engine cfg).commit c [.uploaded w.uploads]
        { w with uploads := w.uploads + 1 }).turfs turfId = (v.db.turf? turfId).map (·.images) :=
      imagesOf_turf hturfs
    rw [hfound] at hrow hafter
    simp only [if_neg hempty, Engine.solo_ret, Engine.andThen_ok, Engine.solo_bind, hrow]
    cases hturf : v.db.turf? turfId with
    | none =>
      rw [hturf] at hafter
      exact ⟨rfl, hafter.trans hturfs⟩
    | some turf =>
      rw [hturf] at hafter
      refine ⟨rfl, hafter.trans ?_⟩
      show Rows.update _ _ _ w.turfs = Rows.update _ _ _ v.db.turfs
      rw [hturfs, ← hnow]
      rfl

/-- A deletion that runs alone, while Cloudinary answers. -/
theorem solo_deleteTurfImage (hturfs : w.turfs = v.db.turfs) (hnow : w.now = v.now)
    (imageUrl : String) :
    let r := (engine cfg).solo c (UploadController.deleteTurfImage turfId imageUrl) .idle w
    let p := Pages.UploadController.deleteTurfImage turfId imageUrl true v
    r.1 = p.1.map (fun _ => .success) ∧ r.2.2.turfs = p.2.db.turfs := by
  obtain ⟨w', hread, hturfs', hnow'⟩ := @solo_findImages cfg c w turfId
  have hfound : imagesOf w.turfs turfId = (v.db.turf? turfId).map (·.images) := imagesOf_turf hturfs
  simp only [UploadController.deleteTurfImage, Pages.UploadController.deleteTurfImage,
    Pages.UploadService.deleteImage, Prog.bind_eq, Prog.pure_eq, Engine.solo_bind, hread,
    Engine.andThen_ok, hfound]
  cases hturf : v.db.turf? turfId with
  | none => exact ⟨rfl, hturfs'.trans hturfs⟩
  | some turf =>
    simp only [Option.map_some]
    by_cases hmem : imageUrl ∉ turf.images
    · simp only [if_pos hmem]
      exact ⟨rfl, hturfs'.trans hturfs⟩
    obtain ⟨w'', hrow, hafter⟩ := @solo_row cfg c w' turfId
      (.setImages turfId (turf.images.filter (· ≠ imageUrl))) () .P2025
      (.set turfId (turf.images.filter (· ≠ imageUrl))) fun _ => rfl
    rw [hturfs', hfound, hturf] at hrow hafter
    simp only [if_neg hmem, Engine.solo_bind, solo_deleteImage, Engine.andThen_ok, hrow]
    refine ⟨rfl, hafter.trans ?_⟩
    show Rows.update _ _ _ w.turfs = Rows.update _ _ _ v.db.turfs
    rw [hturfs, hnow', ← hnow]

end

end TurfSync.Images
