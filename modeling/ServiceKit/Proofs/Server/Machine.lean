import ServiceKit.Proofs.Context.Tokens
import ServiceKit.Server.Race

namespace ServiceKit.Server

def Machine.hears (m : Machine) (c : Context) : Bool := c.notifier.isSome && m.fanout.isSome

theorem Machine.Later.refl (m : Machine) : m.Later m := ⟨rfl,.refl _⟩

theorem Machine.Later.trans {m m' m'' : Machine} (first : m.Later m') (second : m'.Later m'') : m.Later m'' :=
  ⟨second.fanout.trans first.fanout,first.tokens.trans second.tokens⟩

namespace Run

-- Whatever machine it starts from, it leaves a later one and takes no time.
def Keeps (f : Run α) : Prop := ∀ m : Machine, m.Later (f.run m).2 ∧ (f.run m).2.world.now = m.world.now

theorem Keeps.bind {f : Run α} {g : α → Run β} (first : Keeps f) (second : ∀ a, Keeps (g a)) : Keeps (f >>= g) := by
  intro m
  obtain ⟨later,now⟩ := first m
  obtain ⟨later',now'⟩ := second (f.run m).1 (f.run m).2
  exact ⟨later.trans later',now'.trans now⟩

theorem keeps_pure (a : α) : Keeps (pure a : Run α) := fun m => ⟨.refl m,rfl⟩

-- What leaves the world and the way of notices as they are takes no time either.
theorem keeps_of_same {f : Run α} (world : ∀ m, (f.run m).2.world = m.world)
    (fanout : ∀ m, (f.run m).2.fanout = m.fanout) : Keeps f :=
  fun m => ⟨⟨fanout m,by rw [world]; exact .refl _⟩,by rw [world]⟩

theorem keeps_say (text : String) : Keeps (say text) := keeps_of_same (fun _ => rfl) (fun _ => rfl)

theorem keeps_record (c : Context) (name value : String) : Keeps (record c name value) := by
  unfold record
  cases c.span with
  | none => exact keeps_of_same (fun _ => rfl) (fun _ => rfl)
  | some _ => exact keeps_of_same (fun _ => rfl) (fun _ => rfl)

theorem run_notify (c : Context) (n : Notification) (m : Machine) :
    ((notify c n).run m).2.world = m.world ∧ ((notify c n).run m).2.fanout = m.fanout ∧
      ((notify c n).run m).2.notices = m.notices ++ if m.hears c then [⟨c.traceId,n⟩] else [] := by
  unfold notify Machine.hears
  cases c.notifier with
  | none => exact ⟨rfl,rfl,(List.append_nil _).symm⟩
  | some _ =>
    obtain ⟨_,fanout,_⟩ := m
    cases fanout with
    | none => exact ⟨rfl,rfl,(List.append_nil _).symm⟩
    | some _ => exact ⟨rfl,rfl,rfl⟩

theorem keeps_notify (c : Context) (n : Notification) : Keeps (notify c n) :=
  keeps_of_same (fun m => (run_notify c n m).1) (fun m => (run_notify c n m).2.1)

theorem keeps_send (c : Context) (notice : Option Notification) : Keeps (send c notice) := by
  cases notice with
  | none => exact keeps_pure ()
  | some n => exact (keeps_notify c n).bind fun _ => keeps_pure ()

theorem keeps_importFile (c : Context) (d : Import.Decoder) (job : Import.Job) (shape : Shape) (script : Import.Script) :
    Keeps (importFile c d job shape script) := by
  intro m
  let own := (c.detached m.world).1
  let ran := job.run d m.catalog shape script.bare own (m.span? c) ()
  let logged := { m with world := (c.detached m.world).2,logs := m.logs ++ ran.logs,ticks := m.ticks ++ ran.ticks }
  have kept : m.Later logged := ⟨rfl,TokenForest.extends_append _ _⟩
  obtain ⟨later,now⟩ := keeps_send own ran.notice logged
  exact ⟨kept.trans later,now⟩

theorem keeps_perform (c : Context) (e : Effect) : Keeps (perform c e) := by
  cases e with
  | say text => exact (keeps_say text).bind fun _ => keeps_pure _
  | sleep _ | awaitDone | retrace _ => exact keeps_pure _
  | notify n => exact (keeps_notify c n).bind fun _ => keeps_pure _
  | cacheGet key =>
    unfold perform
    cases c.cache with
    | none => exact keeps_pure _
    | some _ => exact keeps_of_same (fun _ => rfl) (fun _ => rfl)
  | cacheSet key value =>
    unfold perform
    cases c.cache with
    | none => exact keeps_of_same (fun _ => rfl) (fun _ => rfl)
    | some _ => exact keeps_of_same (fun _ => rfl) (fun _ => rfl)
  | cancel => exact fun m => ⟨⟨rfl,TokenForest.extends_cancel _ _⟩,rfl⟩
  | moment => exact keeps_of_same (fun _ => rfl) (fun _ => rfl)
  | importFile d job shape script => exact (keeps_importFile c d job shape script).bind fun _ => keeps_pure _

theorem record_world (c : Context) (name value : String) (m : Machine) :
    ((record c name value).run m).2.world = m.world := by
  unfold record
  cases c.span <;> rfl

def Calm (f g : TokenForest) : Prop := g = f ∨ g = f.root.2

theorem perform_cancel (c : Context) (m : Machine) :
    ((perform c .cancel).run m).1.1 = c ∧
      ((perform c .cancel).run m).2.world.tokens = m.world.tokens.cancel c.token :=
  ⟨rfl,rfl⟩

theorem importFile_tokens (c : Context) (d : Import.Decoder) (job : Import.Job) (shape : Shape) (script : Import.Script) (m : Machine) :
    ((importFile c d job shape script).run m).2.world.tokens = m.world.tokens.root.2 := by
  let own := (c.detached m.world).1
  let ran := job.run d m.catalog shape script.bare own (m.span? c) ()
  let logged := { m with world := (c.detached m.world).2,logs := m.logs ++ ran.logs,ticks := m.ticks ++ ran.ticks }
  have sent : ((send own ran.notice).run logged).2.world = logged.world := by
    cases ran.notice with
    | none => rfl
    | some n => exact (run_notify own n logged).1
  exact congrArg World.tokens sent

theorem perform_calm (c : Context) {e : Effect} (other : e ≠ .cancel) (m : Machine) :
    ((perform c e).run m).1.1.token = c.token ∧
      Calm m.world.tokens ((perform c e).run m).2.world.tokens := by
  cases e with
  | say _ | sleep _ | awaitDone | retrace _ | moment => exact ⟨rfl,.inl rfl⟩
  | notify n => exact ⟨rfl,.inl (congrArg World.tokens (run_notify c n m).1)⟩
  | cacheGet key =>
    unfold perform
    cases c.cache <;> exact ⟨rfl,.inl rfl⟩
  | cacheSet key value =>
    unfold perform
    cases c.cache <;> exact ⟨rfl,.inl rfl⟩
  | cancel => exact absurd rfl other
  | importFile d job shape script => exact ⟨rfl,.inr (importFile_tokens c d job shape script m)⟩

end Run
def plainRequest : Request := ⟨"GET",⟨none,"","/thing",none⟩,[],[],[],none,⟨32,4⟩,none⟩

end ServiceKit.Server
