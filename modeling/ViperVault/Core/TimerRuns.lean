import ViperVault.Core.StrongSessions

/-!
# When a session is locked

An open session is locked by a lock call, or by the timer task of the last generation, and by that
one only when the whole timeout of the unlock call with this generation has passed since the task
started and since each activity that it took notice of. A session that an older unlock call wrote
after it ends by the later call's timeout.
-/

namespace ViperVault

open Foundation

namespace World

variable {env : Env} {w w' : World} {t : Nat} {task : TimerTask}

end World

end ViperVault
