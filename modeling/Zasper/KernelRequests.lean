import Zasper.KernelSupervisor
import Zasper.Server
import Zasper.Structs

/-!
# The page's requests for kernels

The requests that the page sends to start a session, to end one, to kill a kernel and
to connect to one, and what the router makes of them. No route takes the deletion of a
session or of a kernel below `/api`: such a request is answered with the page, and no
kernel is killed. The page's token is taken to be accepted.
-/
namespace Zasper.KernelRequests
open Zasper.Maps Zasper.JsonValues Zasper.JsonText Zasper.Structs Zasper.Strings Zasper.Paths Zasper.Http Zasper.Server
open Zasper.Kernels Zasper.KernelManagers Zasper.KernelSupervisor
set_option linter.unusedSimpArgs false

/-! ## Sessions as JSON -/

def kernelModelFields : List (StructField KernelModel) :=
  [ field "id" text (·.id) (fun s v => { s with id := v })
  , field "name" text (·.name) (fun s v => { s with name := v })
  , field "last_activity" text (·.lastActivity) (fun s v => { s with lastActivity := v })
  , field "execution_state" text (·.executionState) (fun s v => { s with executionState := v })
  , field "connections" int (·.connections) (fun s v => { s with connections := v }) ]

def kernelModel : Codec KernelModel := struct ⟨"","","","",0⟩ kernelModelFields

def sessionModelFields : List (StructField SessionModel) :=
  [ field "id" text (·.id) (fun s v => { s with id := v })
  , field "path" text (·.path) (fun s v => { s with path := v })
  , field "name" text (·.name) (fun s v => { s with name := v })
  , field "type" text (·.sessionType) (fun s v => { s with sessionType := v })
  , field "kernel" kernelModel (·.kernel) (fun s v => { s with kernel := v }) ]

def sessionModel : Codec SessionModel := struct ⟨"","","","",kernelModel.zero⟩ sessionModelFields

/-! ## Requests of the page -/

def pageRequest (token method path : String) (query : List (String × String)) (body : List UInt8) : Http.Request :=
  ⟨method,path,query,[("Content-Type","application/json"),("Authorization","Bearer " ++ token)],body⟩

/-- `startASession` asks for a session. -/
def sessionBody (path name type kernelspec : String) : Json :=
  .obj [("path",.str path),("name",.str name),("type",.str type),("kernel",.obj [("name",.str kernelspec)])]

def createSessionRequest (token path name type kernelspec : String) : Http.Request :=
  pageRequest token "POST" "/api/sessions" [] (marshal (sessionBody path name type kernelspec))

def deleteSessionRequest (token sessionId : String) : Http.Request :=
  pageRequest token "DELETE" ("/api/sessions/" ++ sessionId) [] []

def deleteKernelRequest (token kernelId : String) : Http.Request :=
  pageRequest token "DELETE" ("/api/kernels/" ++ kernelId) [] []

def channelsRequest (kernelId sessionId : String) : Http.Request :=
  ⟨"GET","/ws/kernels/" ++ kernelId ++ "/channels",[("session_id",sessionId)],[],[]⟩

/-! ## What the server makes of them -/

/-- What a request meets outside the server. -/
structure Outside where
  start : SessionStart
  kernel : Kernels.Outside

section
variable (mac : List UInt8 → List UInt8 → List UInt8)

def sessionCreateApiHandler (outside : Outside) (s : Supervisor) (body : List UInt8) : Supervisor × Reply :=
  match sessionModel.decodeStream body sessionModel.zero with
  | (_,some _) => (s,.failed)
  | (body,none) => step mac s (.createSession body outside.start)

/-- The handlers that touch sessions or kernels; the others leave them as they are. -/
def serve (outside : Outside) (s : Supervisor) (r : Http.Request) : Supervisor × Reply :=
  match destination r with
  | .handler (.api .sessionCreate) _ => sessionCreateApiHandler mac outside s r.body
  | .handler (.api .kernelKill) vars => step mac s (.stop (valueOf vars "kernelId") outside.kernel)
  | .handler .kernelDelete vars => step mac s (.deleteKernel (valueOf vars "kernel_id") outside.kernel)
  | .handler .handleWebSocket vars =>
    step mac s (.connect (valueOf vars "kernelId") (r.queryValue "session_id") outside.kernel)
  | _ => (s,.done)

end

/-! ## Routes -/

/-- A route that was found takes the method of the request. -/
theorem dispatch_some {Handler : Type} {routes : List (Route Handler)} {r : Http.Request} {handler : Handler}
    {vars : Vars} (found : dispatch routes r = some (handler,vars)) :
    ∃ route ∈ routes, route.handler = handler ∧ (route.methods = [] ∨ r.method ∈ route.methods) ∧
      route.pattern.matches? r.path = some vars := by
  obtain ⟨route,member,fits⟩ := List.exists_of_findSome?_eq_some found
  unfold Route.matches? at fits
  split_ifs at fits with method
  obtain ⟨values,same,pair⟩ := Option.map_eq_some_iff.mp fits
  obtain ⟨rfl,rfl⟩ := Prod.mk.inj pair
  exact ⟨route,member,rfl,method,same⟩

theorem destination_handler {r : Http.Request} {handler : Handler} {vars : Vars}
    (goes : destination r = .handler handler vars) : dispatch router r = some (handler,vars) := by
  unfold destination at goes
  split_ifs at goes
  split at goes
  · cases goes
  · rename_i found
    obtain ⟨rfl,rfl⟩ := Destination.handler.inj goes
    exact found

/-- What takes the requests for sessions and kernels, with its methods and its template. -/
theorem router_handlers : ∀ route ∈ router,
    (route.handler = .api .sessionCreate → route.methods = ["POST"]) ∧
    (route.handler = .api .kernelKill → route.methods = ["POST"]) ∧
    (route.handler = .kernelDelete →
      route.methods = ["DELETE"] ∧ route.pattern = .template "/ws/kernels/{kernel_id}") ∧
    (route.handler = .handleWebSocket → route.pattern = .template "/ws/kernels/{kernelId}/channels") := by
  decide

/-- A path below `/api` is no path below `/ws`. -/
theorem ws_unmatched (rest : String) :
    (Pattern.template "/ws/kernels/{kernel_id}").matches? ("/api/" ++ rest) = none ∧
      (Pattern.template "/ws/kernels/{kernelId}/channels").matches? ("/api/" ++ rest) = none := by
  obtain ⟨piece,pieces,cut⟩ := List.exists_cons_of_ne_nil (cutAt_ne_nil '/' rest.toList)
  have path : cutAt '/' ("/api/" ++ rest).toList = [] :: ['a','p','i'] :: piece :: pieces := by
    simp [String.toList_append,cutAt,cut]
  have short : (cutAt '/' "/ws/kernels/{kernel_id}".toList).map pieceSegment =
      [.text [],.text "ws".toList,.text "kernels".toList,.var "kernel_id"] := by decide
  have long : (cutAt '/' "/ws/kernels/{kernelId}/channels".toList).map pieceSegment =
      [.text [],.text "ws".toList,.text "kernels".toList,.var "kernelId",.text "channels".toList] := by decide
  constructor
  · rw [Pattern.matches?,short,path]
    simp [matchSegments]
  · rw [Pattern.matches?,long,path]
    simp [matchSegments]

section
variable {mac : List UInt8 → List UInt8 → List UInt8} {outside : Outside} {s : Supervisor}

/-- A request to delete something below `/api` is left to the page. -/
theorem serve_deletion {r : Http.Request} (method : r.method = "DELETE") {rest : String} (path : r.path = "/api/" ++ rest) :
    serve mac outside s r = (s,.done) := by
  unfold serve
  split
  · rename_i vars goes
    obtain ⟨route,member,handler,taken,fits⟩ := dispatch_some (destination_handler goes)
    have methods := (router_handlers route member).1 handler
    simp [methods,method] at taken
  · rename_i vars goes
    obtain ⟨route,member,handler,taken,fits⟩ := dispatch_some (destination_handler goes)
    have methods := (router_handlers route member).2.1 handler
    simp [methods,method] at taken
  · rename_i vars goes
    obtain ⟨route,member,handler,taken,fits⟩ := dispatch_some (destination_handler goes)
    rw [((router_handlers route member).2.2.1 handler).2,path,(ws_unmatched rest).1] at fits
    cases fits
  · rename_i vars goes
    obtain ⟨route,member,handler,taken,fits⟩ := dispatch_some (destination_handler goes)
    rw [(router_handlers route member).2.2.2 handler,path,(ws_unmatched rest).2] at fits
    cases fits
  · rfl

theorem serve_deleteSession (token sessionId : String) :
    serve mac outside s (deleteSessionRequest token sessionId) = (s,.done) := by
  refine @serve_deletion mac outside s _ rfl ("sessions/" ++ sessionId) ?_
  rw [← String.append_assoc]
  rfl

theorem serve_deleteKernel (token kernelId : String) :
    serve mac outside s (deleteKernelRequest token kernelId) = (s,.done) := by
  refine @serve_deletion mac outside s _ rfl ("kernels/" ++ kernelId) ?_
  rw [← String.append_assoc]
  rfl

end

/-! ## The creation of a session -/

/-- What the page's request asks for: a session without an id. -/
def asked (path name type kernelspec : String) : SessionModel := ⟨"",path,name,type,⟨"",kernelspec,"","",0⟩⟩

theorem decode_sessionBody (path name type kernelspec : String) :
    sessionModel.decodeStream (marshal (sessionBody path name type kernelspec)) sessionModel.zero =
      (asked path name type kernelspec,none) := by
  simp only [Codec.decodeStream,unmarshalStart_marshal,Codec.decodeParsed]
  rfl

/-- Where a request goes depends on its method and its path, but for the preflight. -/
theorem destination_congr {r other : Http.Request} (method : r.method = other.method) (path : r.path = other.path)
    (noPreflight : r.method ≠ "OPTIONS") : destination r = destination other := by
  have same : dispatch router r = dispatch router other := by
    simp only [dispatch,Route.matches?,method,path]
  have noPreflightOther : other.method ≠ "OPTIONS" := method ▸ noPreflight
  simp only [destination,noPreflight,noPreflightOther,false_and,↓reduceIte,path,same]

theorem destination_createSession (token path name type kernelspec : String) :
    destination (createSessionRequest token path name type kernelspec) = .handler (.api .sessionCreate) [] := by
  have same : destination (createSessionRequest token path name type kernelspec) =
      destination ⟨"POST","/api/sessions",[],[],[]⟩ :=
    destination_congr rfl rfl (by simp [createSessionRequest,pageRequest])
  rw [same]
  decide

theorem serve_createSession (mac : List UInt8 → List UInt8 → List UInt8) (outside : Outside) (s : Supervisor)
    (token path name type kernelspec : String) :
    serve mac outside s (createSessionRequest token path name type kernelspec) =
      step mac s (.createSession (asked path name type kernelspec) outside.start) := by
  have body : (createSessionRequest token path name type kernelspec).body =
      marshal (sessionBody path name type kernelspec) := rfl
  have handled : serve mac outside s (createSessionRequest token path name type kernelspec) =
      sessionCreateApiHandler mac outside s (createSessionRequest token path name type kernelspec).body := by
    rw [serve,destination_createSession]
  rw [handled,body,sessionCreateApiHandler,decode_sessionBody]

/-- The page gets a new session with a kernel of its own, or none. -/
theorem serve_createSession_cases (mac : List UInt8 → List UInt8 → List UInt8) (outside : Outside) {s : Supervisor}
    (live : s.exited = false) (unknown : s.registry.sessions.get? "" = none) (token path name type kernelspec : String) :
    (newProcess s outside.start = none ∧
        (serve mac outside s (createSessionRequest token path name type kernelspec)).1 = claimed s outside.start ∧
        ∀ session, (serve mac outside s (createSessionRequest token path name type kernelspec)).2 ≠ .created session) ∨
      ∃ pid, newProcess s outside.start = some pid ∧
        serve mac outside s (createSessionRequest token path name type kernelspec) =
          (launched s (asked path name type kernelspec) outside.start pid,
            .created (newSession s (asked path name type kernelspec) outside.start)) := by
  have handled : step mac s (.createSession (asked path name type kernelspec) outside.start) =
      createSession outside.start s (asked path name type kernelspec) := by
    rw [step,live]
    rfl
  rw [serve_createSession,handled]
  exact createSession_new outside.start unknown

/-- What a connection leaves as it is. -/
structure SameKernels (s s' : Supervisor) : Prop where
  kernels : s'.registry.kernels = s.registry.kernels
  sessions : s'.registry.sessions = s.registry.sessions
  issued : s'.issued = s.issued
  exited : s'.exited = s.exited

theorem serve_channels (mac : List UInt8 → List UInt8 → List UInt8) (outside : Outside) (s : Supervisor)
    (kernelId sessionId : String) : SameKernels s (serve mac outside s (channelsRequest kernelId sessionId)).1 := by
  unfold serve
  split
  · rename_i vars goes
    obtain ⟨route,member,handler,taken,fits⟩ := dispatch_some (destination_handler goes)
    have methods := (router_handlers route member).1 handler
    simp [methods,channelsRequest] at taken
  · rename_i vars goes
    obtain ⟨route,member,handler,taken,fits⟩ := dispatch_some (destination_handler goes)
    have methods := (router_handlers route member).2.1 handler
    simp [methods,channelsRequest] at taken
  · rename_i vars goes
    obtain ⟨route,member,handler,taken,fits⟩ := dispatch_some (destination_handler goes)
    have methods := ((router_handlers route member).2.2.1 handler).1
    simp [methods,channelsRequest] at taken
  · rename_i vars goes
    generalize (channelsRequest kernelId sessionId).queryValue "session_id" = query
    have change := @step_change mac s (.connect (valueOf vars "kernelId") query outside.kernel)
    generalize (step mac s (.connect (valueOf vars "kernelId") query outside.kernel)).1 = s' at change ⊢
    cases change with
    | gone exited => exact ⟨rfl,rfl,rfl,rfl⟩
    | refused live => exact ⟨rfl,rfl,rfl,rfl⟩
    | connected live known => exact ⟨rfl,rfl,rfl,rfl⟩
  · exact ⟨rfl,rfl,rfl,rfl⟩

/-! ## A server for the page -/

/-- What the page's requests keep of the server: it goes on, no session is without an id,
    and the ids of the kernels were drawn. -/
structure Serving (s : Supervisor) : Prop where
  live : s.exited = false
  named : s.registry.sessions.get? "" = none
  issued : ∀ e ∈ s.registry.kernels.entries, e.1 ∈ s.issued

theorem Serving.same {s s' : Supervisor} (serving : Serving s) (same : SameKernels s s') : Serving s' where
  live := same.exited.trans serving.live
  named := by
    rw [same.sessions]
    exact serving.named
  issued := by
    rw [same.kernels,same.issued]
    exact serving.issued

theorem Serving.claimed {s : Supervisor} (serving : Serving s) (start : SessionStart) : Serving (claimed s start) where
  live := serving.live
  named := serving.named
  issued e member := List.mem_cons_of_mem _ (List.mem_cons_of_mem _ (serving.issued e member))

theorem Serving.launched {s : Supervisor} (serving : Serving s) (req : SessionModel) (start : SessionStart) (pid : Nat) :
    Serving (launched s req start pid) where
  live := serving.live
  named := by
    have plain : newSessionId s start ≠ "" := (start.sessionId.plain s.issued).1
    exact (Dict.get?_insert_other _ plain.symm _).trans serving.named
  issued e member := by
    rcases Dict.mem_insert.mp member with rfl | ⟨old,-⟩
    · exact List.mem_cons_self
    · exact (serving.claimed start).issued e old

end Zasper.KernelRequests
