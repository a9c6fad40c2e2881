import DocAudit.Platform.Basic

/-!
The types of `java.util.concurrent` that comments commonly refer to.
-/

set_option autoImplicit false

namespace DocAudit.Platform

/-- The types of `java.util.concurrent` that comments commonly refer to. -/
def concurrencyTypes : List PlatformType := [
  { platformInterface "java.util.concurrent.Callable" with
      methods := ["call()"] },
  { platformInterface "java.util.concurrent.Future" with
      methods :=
        ["get()", "get(long, java.util.concurrent.TimeUnit)", "cancel(boolean)", "isDone()",
         "isCancelled()"] },
  { platformInterface "java.util.concurrent.Executor" with
      methods := ["execute(java.lang.Runnable)"] },
  { platformInterface "java.util.concurrent.ExecutorService" with
      interfaces := ["java.util.concurrent.Executor", "java.lang.AutoCloseable"]
      methods :=
        ["submit(java.util.concurrent.Callable)", "submit(java.lang.Runnable)", "shutdown()",
         "shutdownNow()", "awaitTermination(long, java.util.concurrent.TimeUnit)"] },
  { platformEnum "java.util.concurrent.TimeUnit" with
      fields := ["NANOSECONDS", "MICROSECONDS", "MILLISECONDS", "SECONDS", "MINUTES", "HOURS", "DAYS"]
      methods := ["toMillis(long)", "toSeconds(long)", "sleep(long)"] },
  { platformClass "java.util.concurrent.ConcurrentHashMap" with
      interfaces := ["java.util.Map", "java.io.Serializable"]
      constructors := ["()", "(int)", "(java.util.Map)"] },
  { platformClass "java.util.concurrent.CompletableFuture" with
      interfaces := ["java.util.concurrent.Future"]
      methods :=
        ["complete(java.lang.Object)", "completedFuture(java.lang.Object)",
         "supplyAsync(java.util.function.Supplier)", "thenApply(java.util.function.Function)",
         "join()"] },
  { platformException "java.util.concurrent.ExecutionException" "java.lang.Exception" with
      constructors := ["(java.lang.String, java.lang.Throwable)", "(java.lang.Throwable)"] },
  { platformException "java.util.concurrent.TimeoutException" "java.lang.Exception" with
      constructors := ["()", "(java.lang.String)"] },
  { platformException "java.util.concurrent.CancellationException" "java.lang.IllegalStateException" with
      constructors := ["()", "(java.lang.String)"] },
  { platformException "java.util.concurrent.CompletionException" "java.lang.RuntimeException" with
      constructors := ["(java.lang.String, java.lang.Throwable)", "(java.lang.Throwable)"] } ]

end DocAudit.Platform
