import WorkspaceOs.Js.Collections
import WorkspaceOs.Core.Member

/-!
# Activity records

Every recorded action carries its acting member. The metadata that this code records are texts.
-/

namespace WorkspaceOs

open Js

structure RecordActivityInput where
  actor : Member
  action : JsString
  resourceType : JsString
  resourceId : JsString
  metadata : Option StringRecord := none

end WorkspaceOs
